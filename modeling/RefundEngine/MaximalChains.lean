import Mathlib.Data.List.Chain
import Mathlib.Order.WellFounded

/-!
# Maximal chains

Where an element has at most one successor and at most one predecessor, and chains are
finite both ways, the elements fall into maximal chains: each of them is in exactly one.
-/

namespace MaximalChains

/-- Elements linked one to the next, which nothing continues at either end. -/
structure Maximal {α : Type} (linked : α → α → Prop) (chain : List α) : Prop where
  links : chain.IsChain linked
  starts : ∀ first ∈ chain.head?, ∀ other, ¬linked other first
  stops : ∀ last ∈ chain.getLast?, ∀ other, ¬linked last other

/-- Links that form chains: they neither fork nor join nor go on for ever. -/
structure Orderly {α : Type} (linked : α → α → Prop) : Prop where
  next_unique : ∀ element left right, linked element left → linked element right → left = right
  previous_unique : ∀ element left right, linked left element → linked right element →
    left = right
  forward : WellFounded fun after before => linked before after
  backward : WellFounded linked

variable {α : Type} {linked : α → α → Prop} {element : α} {rest : List α}

/-- What holds of both ends of every link holds of a chain when it holds of one element. -/
theorem forall_of_isChain {holds : α → Prop} {chain : List α} (links : chain.IsChain linked)
    (ends : ∀ left right, linked left right → holds left ∧ holds right) (member : element ∈ chain)
    (known : holds element) : ∀ other ∈ chain, holds other := by
  induction links generalizing element with
  | nil => cases member
  | singleton only =>
      intro other isOnly
      rw [List.mem_singleton] at member isOnly
      rw [isOnly, ← member]
      exact known
  | cons_cons link links ih =>
      intro other isOther
      rcases ends _ _ link with ⟨first, second⟩
      rcases List.mem_cons.mp isOther with rfl | later
      · exact first
      · exact ih List.mem_cons_self second other later

namespace Orderly

/-- From an element a chain goes on until nothing continues it. -/
theorem exists_rest (orderly : Orderly linked) (element : α) :
    ∃ rest, (element :: rest).IsChain linked ∧
      ∀ last ∈ (element :: rest).getLast?, ∀ other, ¬linked last other := by
  induction element using orderly.forward.induction with
  | h element ih =>
      by_cases continued : ∃ next, linked element next
      · rcases continued with ⟨next, link⟩
        rcases ih next link with ⟨rest, links, stops⟩
        exists next :: rest
        constructor
        · exact .cons_cons link links
        · rw [List.getLast?_cons_cons]
          exact stops
      · exists []
        constructor
        · exact .singleton element
        · intro last isLast other link
          cases isLast
          exact continued ⟨other, link⟩

/-- A chain that nothing continues at its end is the end of a maximal one. -/
theorem exists_before (orderly : Orderly linked) (links : (element :: rest).IsChain linked)
    (stops : ∀ last ∈ (element :: rest).getLast?, ∀ other, ¬linked last other) :
    ∃ before, Maximal linked (before ++ element :: rest) := by
  induction element using orderly.backward.induction generalizing rest with
  | h element ih =>
      by_cases continued : ∃ previous, linked previous element
      · rcases continued with ⟨previous, link⟩
        have longer : (previous :: element :: rest).IsChain linked := .cons_cons link links
        have sameEnd : (previous :: element :: rest).getLast? = (element :: rest).getLast? :=
          List.getLast?_cons_cons
        rw [← sameEnd] at stops
        rcases ih previous link longer stops with ⟨before, maximal⟩
        exists before ++ [previous]
        rw [List.append_assoc]
        exact maximal
      · exists []
        constructor
        · exact links
        · intro first isFirst other link
          cases isFirst
          exact continued ⟨other, link⟩
        · exact stops

/-- What follows an element in its chain is determined by it. -/
theorem rest_unique (orderly : Orderly linked) {rest' : List α}
    (links : (element :: rest).IsChain linked) (links' : (element :: rest').IsChain linked)
    (stops : ∀ last ∈ (element :: rest).getLast?, ∀ other, ¬linked last other)
    (stops' : ∀ last ∈ (element :: rest').getLast?, ∀ other, ¬linked last other) :
    rest = rest' := by
  induction rest generalizing element rest' with
  | nil =>
      cases rest' with
      | nil => rfl
      | cons next after =>
          rw [List.isChain_cons_cons] at links'
          exact (stops element rfl next links'.1).elim
  | cons next after ih =>
      rw [List.isChain_cons_cons] at links
      cases rest' with
      | nil => exact (stops' element rfl next links.1).elim
      | cons next' after' =>
          rw [List.isChain_cons_cons] at links'
          cases orderly.next_unique element next next' links.1 links'.1
          rw [List.getLast?_cons_cons] at stops stops'
          rw [ih links.2 links'.2 stops stops']

theorem before_unique (orderly : Orderly linked) {before before' rest' : List α}
    (maximal : Maximal linked (before ++ element :: rest))
    (maximal' : Maximal linked (before' ++ element :: rest')) : before = before' := by
  induction before using List.reverseRecOn generalizing before' element rest rest' with
  | nil =>
      cases before' using List.reverseRecOn with
      | nil => rfl
      | append_singleton earlier previous =>
          have links := maximal'.links
          rw [List.append_assoc, List.singleton_append, List.isChain_append_cons_cons] at links
          exact (maximal.starts element rfl previous links.2.1).elim
  | append_singleton earlier previous ih =>
      have links := maximal.links
      rw [List.append_assoc, List.singleton_append, List.isChain_append_cons_cons] at links
      cases before' using List.reverseRecOn with
      | nil => exact (maximal'.starts element rfl previous links.2.1).elim
      | append_singleton earlier' previous' =>
          have links' := maximal'.links
          rw [List.append_assoc, List.singleton_append, List.isChain_append_cons_cons] at links'
          cases orderly.previous_unique element previous previous' links.2.1 links'.2.1
          rw [List.append_assoc] at maximal maximal'
          rw [ih maximal maximal']

/-- Every element is in exactly one maximal chain. -/
theorem existsUnique_maximal (orderly : Orderly linked) (element : α) :
    ∃! chain, Maximal linked chain ∧ element ∈ chain := by
  rcases orderly.exists_rest element with ⟨rest, links, stops⟩
  rcases orderly.exists_before links stops with ⟨before, maximal⟩
  exists before ++ element :: rest
  constructor
  · exact ⟨maximal, List.mem_append_right before List.mem_cons_self⟩
  · intro other found
    rcases found with ⟨maximal', member⟩
    rcases List.append_of_mem member with ⟨before', rest', rfl⟩
    have links' := (List.isChain_split.mp maximal'.links).2
    have stops' := maximal'.stops
    rw [List.getLast?_append_cons] at stops'
    rw [orderly.before_unique maximal maximal', orderly.rest_unique links links' stops stops']

end Orderly

end MaximalChains
