import Httpuv.Semantics.Trace
import Mathlib.Data.List.Induction
import Mathlib.Logic.Function.Basic

/-! Numbers that a kernel hands out and takes back, as descriptors are. A number is
free to be handed out again, to anybody, as soon as it has been closed. -/
namespace Descriptors

open Semantics

variable {Owner : Type}

inductive Event (Owner : Type) where
  | opened (owner : Owner) (number : Nat)
  | closed (owner : Owner) (number : Nat)
  deriving DecidableEq, Repr

def Event.owner : Event Owner → Owner
  | .opened owner _ => owner
  | .closed owner _ => owner

/-- Whom a number has been handed out to. -/
abbrev Table (Owner : Type) := Nat → Option Owner

def Table.apply (table : Table Owner) : Event Owner → Table Owner
  | .opened owner number => Function.update table number (some owner)
  | .closed _ number => Function.update table number none

def Table.after (table : Table Owner) (events : List (Event Owner)) : Table Owner :=
  events.foldl Table.apply table

theorem Table.after_concat (table : Table Owner) (events : List (Event Owner))
    (event : Event Owner) :
    table.after (events ++ [event]) = (table.after events).apply event := by
  rw [after, List.foldl_concat]
  rfl

/-- A number is free when it is handed out, and the others close what they have. -/
def Permitted (me : Owner) (table : Table Owner) : Event Owner → Prop
  | .opened _ number => table number = none
  | .closed owner number => owner ≠ me → table number = some owner

/-- A history of everybody who uses the table. -/
def Legal (me : Owner) (table : Table Owner) (events : List (Event Owner)) : Prop :=
  AtEach (fun before event => Permitted me (table.after before) event) events

/-- Whatever the owner closes belongs to it at that time. -/
def ClosesOwn (me : Owner) (table : Table Owner) (events : List (Event Owner)) : Prop :=
  AtEach (fun before event => ∀ number, event = .closed me number →
    table.after before number = some me) events

theorem legal_cons {me : Owner} {table : Table Owner} {event : Event Owner}
    {events : List (Event Owner)} : Legal me table (event :: events) ↔
      Permitted me table event ∧ Legal me (table.apply event) events := AtEach.cons_iff

theorem closesOwn_cons {me : Owner} {table : Table Owner} {event : Event Owner}
    {events : List (Event Owner)} : ClosesOwn me table (event :: events) ↔
      (∀ number, event = .closed me number → table number = some me) ∧
        ClosesOwn me (table.apply event) events := AtEach.cons_iff

variable [DecidableEq Owner]

/-- The part of a history that one of the owners brings about. -/
def own (me : Owner) (events : List (Event Owner)) : List (Event Owner) :=
  events.filter (fun event => event.owner = me)

section Own

variable {me : Owner} {table : Table Owner} {events : List (Event Owner)} {event : Event Owner}

theorem own_concat_mine (hMine : event.owner = me) :
    own me (events ++ [event]) = own me events ++ [event] := by
  simp [own, hMine]

theorem own_concat_other (hOther : event.owner ≠ me) :
    own me (events ++ [event]) = own me events := by
  simp [own, hOther]

/-- What an owner has, it has also by its own part of the history alone. -/
theorem owned_iff (h : Legal me table events) (hNone : ∀ number, table number ≠ some me)
    (number : Nat) : table.after events number = some me ↔
      Table.after (fun _ => none) (own me events) number = some me := by
  induction events using List.reverseRecOn generalizing number with
  | nil =>
      have hStart : table.after [] number ≠ some me := hNone number
      exact iff_of_false hStart (by simp [own, Table.after])
  | append_singleton events event ih =>
      obtain ⟨hBefore, hLast⟩ := AtEach.concat_iff.1 h
      have hSame := ih hBefore
      rw [Table.after_concat]
      by_cases hMine : event.owner = me
      · rw [own_concat_mine hMine, Table.after_concat]
        cases event with
        | opened owner other =>
            obtain rfl : owner = me := hMine
            by_cases hNumber : number = other
            · simp [Table.apply, hNumber]
            · simpa [Table.apply, hNumber] using hSame number
        | closed owner other =>
            by_cases hNumber : number = other
            · simp [Table.apply, hNumber]
            · simpa [Table.apply, hNumber] using hSame number
      · rw [own_concat_other hMine]
        -- the number of the event is not one of the owner's, before and behind it
        cases event with
        | opened owner other =>
            have hOwner : owner ≠ me := hMine
            by_cases hNumber : number = other
            · subst hNumber
              have hFree : table.after events number = none := hLast
              rw [← hSame number, hFree]
              simp [Table.apply, hOwner]
            · simpa [Table.apply, hNumber] using hSame number
        | closed owner other =>
            have hOwner : owner ≠ me := hMine
            by_cases hNumber : number = other
            · subst hNumber
              have hHeld : table.after events number = some owner := hLast hOwner
              rw [← hSame number, hHeld]
              simp [Table.apply, hOwner]
            · simpa [Table.apply, hNumber] using hSame number

/-- Whether an owner closes what belongs to it does not depend on the others. -/
theorem closesOwn_iff (h : Legal me table events) (hNone : ∀ number, table number ≠ some me) :
    ClosesOwn me table events ↔ ClosesOwn me (fun _ => none) (own me events) := by
  induction events using List.reverseRecOn with
  | nil => exact iff_of_true AtEach.nil AtEach.nil
  | append_singleton events event ih =>
      have hBefore : Legal me table events := AtEach.of_append h
      by_cases hMine : event.owner = me
      · rw [own_concat_mine hMine, ClosesOwn, ClosesOwn, AtEach.concat_iff, AtEach.concat_iff]
        exact and_congr (ih hBefore) (forall_congr' fun number => imp_congr_right fun _ =>
          owned_iff hBefore hNone number)
      · rw [own_concat_other hMine, ClosesOwn, AtEach.concat_iff]
        refine (and_iff_left ?_).trans (ih hBefore)
        rintro number rfl
        exact absurd rfl hMine

end Own

end Descriptors
