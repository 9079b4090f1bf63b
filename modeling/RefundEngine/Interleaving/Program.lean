import Mathlib.Tactic.TypeStar

/-!
# Programs over answered commands

A program is a finite tree of commands.  Each command is handed to a shared
world and the program continues with the answer.  Nothing here says what a
command does: the tree only records which command comes next, so the same program
can be run alone or interleaved with others at the granularity of its commands.
-/

namespace Interleaving

/-- A program issuing commands and returning a value.  `Answer` gives the type
of the answer to each command. -/
inductive Program {Command : Type} (Answer : Command → Type) (α : Type) : Type where
  | ret (value : α)
  | call (command : Command) (next : Answer command → Program Answer α)

namespace Program

variable {Command : Type} {Answer : Command → Type} {α β γ : Type}

/-- Run one program and continue with its value. -/
def bind : Program Answer α → (α → Program Answer β) → Program Answer β
  | .ret value, continuation => continuation value
  | .call command next, continuation =>
      .call command fun answer => (next answer).bind continuation

instance : Monad (Program Answer) where
  pure := .ret
  bind := bind

@[simp] theorem pure_eq_ret (value : α) :
    (pure value : Program Answer α) = .ret value := rfl

@[simp] theorem ret_bind (value : α) (continuation : α → Program Answer β) :
    (Program.ret value >>= continuation) = continuation value := rfl

@[simp] theorem call_bind (command : Command)
    (next : Answer command → Program Answer α)
    (continuation : α → Program Answer β) :
    (Program.call command next >>= continuation) =
      .call command fun answer => next answer >>= continuation := rfl

end Program

end Interleaving
