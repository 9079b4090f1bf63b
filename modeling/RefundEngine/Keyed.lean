import Mathlib.Data.List.AList
import Mathlib.Data.List.Induction

/-!
# Entries with keys

Where keys are distinct an entry is known by its key.  Where they repeat, a list of entries
read as a map keeps the last entry of every key: an entry counts unless a later one has its
key, and inserting the entries into an association list one by one gives that map.
-/

namespace Keyed

theorem eq_of_nodup_filterMap {α κ : Type} {key? : α → Option κ} {entries : List α}
    (distinct : (entries.filterMap key?).Nodup) {left right : α} (leftIn : left ∈ entries)
    (rightIn : right ∈ entries) {name : κ} (leftKey : key? left = some name)
    (rightKey : key? right = some name) : left = right := by
  have apart := List.pairwise_filterMap.mp distinct
  have agree : entries.Pairwise fun left right =>
      ∀ name, key? left = some name → key? right = some name → left = right :=
    apart.imp fun differ name leftKey rightKey =>
      (differ name leftKey name rightKey rfl).elim
  have agree' : entries.Pairwise fun right left =>
      ∀ name, key? left = some name → key? right = some name → left = right :=
    apart.imp fun differ name leftKey rightKey =>
      (differ name rightKey name leftKey rfl).elim
  exact agree.forall_of_forall_of_flip (fun _ _ _ _ _ => rfl) agree' leftIn rightIn name
    leftKey rightKey

variable {α κ : Type} [DecidableEq κ] (key : α → κ)

/-- The entries that no later entry supersedes. -/
def lastByKey : List α → List α
  | [] => []
  | entry :: rest =>
      if key entry ∈ rest.map key then lastByKey rest else entry :: lastByKey rest

/-- Index entries by their keys; a later entry replaces an earlier one. -/
def indexByKey (entries : List α) : AList fun _ : κ => α :=
  entries.foldl (fun index entry => index.insert (key entry) entry) ∅

variable {key} {name : κ} {entry : α} {entries : List α}

theorem mem_lastByKey_cons {head : α} {rest : List α} :
    entry ∈ lastByKey key (head :: rest) ↔
      entry ∈ lastByKey key rest ∨ (key head ∉ rest.map key ∧ entry = head) := by
  rw [lastByKey]
  split
  · rename_i superseded
    constructor
    · exact .inl
    · intro member
      rcases member with later | ⟨new, _⟩
      · exact later
      · exact (new superseded).elim
  · rename_i new
    rw [List.mem_cons, or_comm, and_iff_right new]

theorem lastByKey_sublist (entries : List α) : (lastByKey key entries).Sublist entries := by
  induction entries with
  | nil => exact .slnil
  | cons head rest ih =>
      rw [lastByKey]
      split
      · exact ih.cons head
      · exact ih.cons_cons head

theorem lastByKey_nodup (entries : List α) : ((lastByKey key entries).map key).Nodup := by
  induction entries with
  | nil => exact List.nodup_nil
  | cons head rest ih =>
      rw [lastByKey]
      split
      · exact ih
      · rename_i new
        rw [List.map_cons, List.nodup_cons]
        constructor
        · intro member
          exact new (((lastByKey_sublist rest).map key).subset member)
        · exact ih

theorem exists_lastByKey (member : name ∈ entries.map key) :
    ∃ last ∈ lastByKey key entries, key last = name := by
  induction entries with
  | nil => cases member
  | cons head rest ih =>
      by_cases later : name ∈ rest.map key
      · rcases ih later with ⟨last, lastIn, same⟩
        exact ⟨last, mem_lastByKey_cons.mpr (.inl lastIn), same⟩
      · rcases List.mem_cons.mp member with rfl | inRest
        · exact ⟨head, mem_lastByKey_cons.mpr (.inr ⟨later, rfl⟩), rfl⟩
        · exact (later inRest).elim

theorem lastByKey_of_nodup (distinct : (entries.map key).Nodup) :
    lastByKey key entries = entries := by
  induction entries with
  | nil => rfl
  | cons head rest ih =>
      rcases List.nodup_cons.mp distinct with ⟨new, restDistinct⟩
      rw [lastByKey, if_neg new, ih restDistinct]

/-- What the index holds after some more entries, by induction on them. -/
private theorem lookup_foldl_insert (index : AList fun _ : κ => α) :
    (entries.foldl (fun index entry => index.insert (key entry) entry) index).lookup name =
        some entry ↔
      (entry ∈ lastByKey key entries ∧ key entry = name) ∨
        (name ∉ entries.map key ∧ index.lookup name = some entry) := by
  induction entries generalizing index with
  | nil => simp [lastByKey]
  | cons head rest ih =>
      rw [List.foldl_cons, ih, mem_lastByKey_cons, List.map_cons, List.mem_cons]
      by_cases isHead : name = key head
      · subst isHead
        rw [AList.lookup_insert, Option.some.injEq]
        constructor
        · intro found
          rcases found with ⟨later, same⟩ | ⟨new, rfl⟩
          · exact .inl ⟨.inl later, same⟩
          · exact .inl ⟨.inr ⟨new, rfl⟩, rfl⟩
        · intro found
          rcases found with ⟨later | ⟨new, rfl⟩, same⟩ | ⟨absent, _⟩
          · exact .inl ⟨later, same⟩
          · exact .inr ⟨new, rfl⟩
          · exact (absent (.inl rfl)).elim
      · rw [AList.lookup_insert_ne isHead]
        constructor
        · intro found
          rcases found with ⟨later, same⟩ | ⟨new, held⟩
          · exact .inl ⟨.inl later, same⟩
          · exact .inr ⟨not_or.mpr ⟨isHead, new⟩, held⟩
        · intro found
          rcases found with ⟨later | ⟨_, rfl⟩, same⟩ | ⟨absent, held⟩
          · exact .inl ⟨later, same⟩
          · exact (isHead same.symm).elim
          · exact .inr ⟨(not_or.mp absent).2, held⟩

/-- The index holds the last entry of every key. -/
theorem lookup_indexByKey :
    (indexByKey key entries).lookup name = some entry ↔
      entry ∈ lastByKey key entries ∧ key entry = name := by
  rw [indexByKey, lookup_foldl_insert]
  simp

theorem lookup_indexByKey_eq_getLast? (entries : List α) (name : κ) :
    (indexByKey key entries).lookup name =
      (entries.filter fun entry => key entry = name).getLast? := by
  induction entries using List.reverseRecOn with
  | nil => rfl
  | append_singleton entries entry ih =>
      have last : indexByKey key (entries ++ [entry]) =
          (indexByKey key entries).insert (key entry) entry := by
        rw [indexByKey, List.foldl_append]
        rfl
      rw [last, List.filter_append]
      by_cases same : key entry = name
      · rw [← same, AList.lookup_insert, List.filter_cons_of_pos (by simp), List.filter_nil,
          List.getLast?_concat]
      · rw [AList.lookup_insert_ne (Ne.symm same), ih, List.filter_cons_of_neg (by simpa using same),
          List.filter_nil, List.append_nil]

end Keyed
