import Mathlib.Data.List.Nodup
import Mathlib.Data.List.Perm.Basic
import Mathlib.Logic.Function.Basic

/-!
# Assignments

A list of keys with values, read from left to right, assigns to each key the last value that it is
given. Where no key comes twice the order is of no account (`lastAssigned_perm`), and what is
computed by one step per assignment follows the values (`foldl_follows`).
-/

namespace Ulpf.Library

variable {κ β σ : Type*} [DecidableEq κ]

def assignFrom (value : κ → Option β) (l : List (κ × β)) : κ → Option β :=
  l.foldl (fun value p => Function.update value p.1 (some p.2)) value

def lastAssigned (l : List (κ × β)) : κ → Option β := assignFrom (fun _ => none) l

/-- Assignments to different keys may be exchanged. -/
theorem lastAssigned_perm {l l' : List (κ × β)} (hperm : l.Perm l')
    (hkeys : (l.map Prod.fst).Nodup) : lastAssigned l = lastAssigned l' := by
  apply hperm.foldl_eq'
  intro p hp q hq value
  by_cases hkey : p.1 = q.1
  · rw [List.inj_on_of_nodup_map hkeys hp hq hkey]
  · exact Function.update_comm hkey _ _ value

/-- A state that holds the values after each assignment holds the last ones. -/
theorem foldl_follows {Holds : (κ → Option β) → σ → Prop} {assign : σ → κ × β → σ}
    (hstep : ∀ value s p, Holds value s → Holds (Function.update value p.1 (some p.2)) (assign s p))
    {value : κ → Option β} {s : σ} (h : Holds value s) (l : List (κ × β)) :
    Holds (assignFrom value l) (l.foldl assign s) := by
  induction l generalizing value s with
  | nil => exact h
  | cons p l ih => exact ih (hstep value s p h)

end Ulpf.Library
