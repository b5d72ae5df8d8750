import Httpuv.Parser.Contract

/-! The scanner together with the decisions of the application: a request whose
headers are complete goes on when a decision is left for it. -/
namespace Httpuv.RequestParser

open Semantics

namespace Scanner

/-- A byte that is consumed. An execution that ends behind an upgrade has consumed
its last byte. -/
def lead (scanner : Scanner) (ch : UInt8) : Option (Scanner × List ParserEvent) :=
  match (scanner.effect ch).control with
  | .next | .stop true =>
      some (scanner.follow ch, (scanner.pending.reportAll (scanner.effect ch).calls).2)
  | .error | .stop false => none

/-- What a byte reports before it is consumed or refused. -/
def told (scanner : Scanner) (ch : UInt8) : List ParserEvent :=
  (scanner.pending.reportAll (scanner.effect ch).calls).2

/-- The scanner in front of a byte that it does not consume. -/
def stopped (scanner : Scanner) (ch : UInt8) : Scanner := ⟨(scanner.effect ch).parser, none⟩

/-- The scanner in front of that byte when the request goes on. -/
def resumed (scanner : Scanner) (ch : UInt8) : Scanner :=
  ⟨(scanner.effect ch).parser.headersCompleted 0, none⟩

/-- A byte, with the number of decisions that are left. -/
def consume (place : Scanner × Nat) (ch : UInt8) :
    Option ((Scanner × Nat) × List ParserEvent) :=
  match (place.1.effect ch).control, place.2 with
  | .stop false, decisions + 1 =>
      ((place.1.resumed ch).lead ch).map (fun led =>
        ((led.1, decisions), place.1.told ch ++ led.2))
  | _, decisions => (place.1.lead ch).map (fun led => ((led.1, decisions), led.2))

def read : Scanner × Nat → Bytes → Option ((Scanner × Nat) × List ParserEvent) :=
  System.exec consume

variable {scanner after : Scanner} {ch : UInt8} {events more : List ParserEvent}
  {decisions left : Nat} {bytes rest : Bytes}

theorem lead_of_next (hControl : (scanner.effect ch).control = .next) :
    scanner.lead ch = some (scanner.follow ch, scanner.told ch) := by
  simp only [lead, hControl, told]

theorem lead_of_stop (hControl : (scanner.effect ch).control = .stop true) :
    scanner.lead ch = some (scanner.follow ch, scanner.told ch) := by
  simp only [lead, hControl, told]

theorem lead_of_stopped (hControl : (scanner.effect ch).control = .stop false) :
    scanner.lead ch = none := by
  simp only [lead, hControl]

/-- A byte that leads on needs no decision. -/
theorem consume_of_lead (hLead : scanner.lead ch = some (after, events)) (decisions : Nat) :
    consume (scanner, decisions) ch = some ((after, decisions), events) := by
  unfold consume
  cases hControl : (scanner.effect ch).control with
  | next => simp only [hLead, Option.map_some]
  | error => simp only [hLead, Option.map_some]
  | stop consumed =>
      cases consumed with
      | true => simp only [hLead, Option.map_some]
      | false =>
          rw [lead_of_stopped hControl] at hLead
          cases hLead

theorem consume_stopped (hControl : (scanner.effect ch).control = .stop false) :
    consume (scanner, 0) ch = none := by
  simp only [consume, hControl, lead_of_stopped hControl, Option.map_none]

theorem consume_resumed (hControl : (scanner.effect ch).control = .stop false)
    (hLead : (scanner.resumed ch).lead ch = some (after, events)) (decisions : Nat) :
    consume (scanner, decisions + 1) ch =
      some ((after, decisions), scanner.told ch ++ events) := by
  simp only [consume, hControl, hLead, Option.map_some]

/-- Without a decision only bytes that lead on are consumed. -/
theorem lead_of_consume (hConsume : consume (scanner, 0) ch = some ((after, left), events)) :
    left = 0 ∧ scanner.lead ch = some (after, events) := by
  unfold consume at hConsume
  cases hLead : scanner.lead ch with
  | none => cases hControl : (scanner.effect ch).control <;> simp [hControl, hLead] at hConsume
  | some led =>
      obtain ⟨led, told⟩ := led
      have hSame := consume_of_lead hLead 0
      simp only [consume] at hSame
      rw [hSame] at hConsume
      simp only [Option.some.injEq, Prod.mk.injEq] at hConsume
      obtain ⟨⟨rfl, rfl⟩, rfl⟩ := hConsume
      exact ⟨rfl, rfl⟩

/-- A decision that is not needed is left. -/
theorem consume_succ (hConsume : consume (scanner, decisions) ch = some ((after, left), events)) :
    consume (scanner, decisions + 1) ch = some ((after, left + 1), events) := by
  cases hLead : scanner.lead ch with
  | some led =>
      rw [consume_of_lead hLead] at hConsume ⊢
      simp only [Option.some.injEq, Prod.mk.injEq] at hConsume ⊢
      obtain ⟨⟨rfl, rfl⟩, rfl⟩ := hConsume
      exact ⟨⟨rfl, rfl⟩, rfl⟩
  | none =>
      cases decisions with
      | zero =>
          rw [(lead_of_consume hConsume).2] at hLead
          cases hLead
      | succ decisions =>
          cases hControl : (scanner.effect ch).control with
          | next => simp [consume, hControl, hLead] at hConsume
          | error => simp [consume, hControl, hLead] at hConsume
          | stop consumed =>
              cases consumed with
              | true => simp [consume, hControl, hLead] at hConsume
              | false =>
                  simp only [consume, hControl, Option.map_eq_some_iff, Prod.mk.injEq,
                    Prod.exists] at hConsume ⊢
                  obtain ⟨led, told, hLed, ⟨rfl, rfl⟩, rfl⟩ := hConsume
                  exact ⟨led, told, hLed, ⟨rfl, rfl⟩, rfl⟩

theorem read_succ (hRead : read (scanner, decisions) bytes = some ((after, left), events)) :
    read (scanner, decisions + 1) bytes = some ((after, left + 1), events) := by
  induction bytes generalizing scanner decisions events with
  | nil =>
      simp only [read, System.exec, Option.some.injEq, Prod.mk.injEq] at hRead ⊢
      obtain ⟨⟨rfl, rfl⟩, rfl⟩ := hRead
      exact ⟨⟨rfl, rfl⟩, rfl⟩
  | cons ch bytes ih =>
      obtain ⟨⟨middle, middleLeft⟩, first, last, hConsume, hRest, rfl⟩ :=
        System.exec_cons_eq_some.1 hRead
      exact System.exec_cons_eq_some.2 ⟨_, first, last, consume_succ hConsume, ih hRest, rfl⟩

theorem read_append (hFirst : read (scanner, decisions) bytes = some ((after, left), events)) :
    read (scanner, decisions) (bytes ++ rest) =
      (read (after, left) rest).map (fun finish => (finish.1, events ++ finish.2)) := by
  rw [read, System.exec_append]
  rw [read] at hFirst
  rw [hFirst]
  rfl

theorem read_singleton (place : Scanner × Nat) (ch : UInt8) : read place [ch] = consume place ch :=
  System.exec_singleton place ch

/-- Scanning needs no decision. -/
theorem read_of_scan (hScan : scanner.scan bytes = some (after, events)) (decisions : Nat) :
    read (scanner, decisions) bytes = some ((after, decisions), events) := by
  induction bytes generalizing scanner events with
  | nil =>
      simp only [scan, System.exec, Option.some.injEq, Prod.mk.injEq] at hScan
      obtain ⟨rfl, rfl⟩ := hScan
      rfl
  | cons ch bytes ih =>
      obtain ⟨hControl, last, hRest, rfl⟩ := scan_cons hScan
      have hFirst := consume_of_lead (lead_of_next hControl) decisions
      rw [← read_singleton] at hFirst
      change read (scanner, decisions) ([ch] ++ bytes) = _
      rw [read_append hFirst, ih hRest]
      rfl

/-- What the resumed scanner reads is read with one decision more. -/
theorem read_resumed (hControl : (scanner.effect ch).control = .stop false)
    (hRead : read (scanner.resumed ch, 0) (ch :: bytes) = some ((after, left), events)) :
    read (scanner, 1) (ch :: bytes) = some ((after, left), scanner.told ch ++ events) := by
  obtain ⟨⟨middle, middleLeft⟩, first, last, hConsume, hRest, rfl⟩ :=
    System.exec_cons_eq_some.1 hRead
  obtain ⟨rfl, hLead⟩ := lead_of_consume hConsume
  exact System.exec_cons_eq_some.2
    ⟨_, _, _, consume_resumed hControl hLead 0, hRest, (List.append_assoc _ _ _).symm⟩

/-- A byte without the decision that it needs is read by no one. -/
theorem read_stopped (hRead : read (scanner, decisions) bytes = some ((after, 0), events))
    (hControl : (after.effect ch).control = .stop false) :
    read (scanner, decisions) (bytes ++ ch :: rest) = none := by
  rw [read_append hRead]
  simp [read, System.exec, consume_stopped hControl]

/-- The place at which a decision is missing depends on the bytes only. -/
theorem stopped_unique {bytes' rest' : Bytes} {ch' : UInt8} {after' : Scanner} {left' : Nat}
    {events' : List ParserEvent}
    (hRead : read (scanner, decisions) bytes = some ((after, 0), events))
    (hControl : (after.effect ch).control = .stop false)
    (hRead' : read (scanner, decisions) bytes' = some ((after', left'), events'))
    (hSame : bytes ++ ch :: rest = bytes' ++ ch' :: rest') : bytes'.length ≤ bytes.length := by
  by_contra hLonger
  have hHere : (bytes ++ [ch]) <+: bytes ++ ch :: rest := ⟨rest, by simp⟩
  have hThere : bytes' <+: bytes ++ ch :: rest := by
    rw [hSame]
    exact List.prefix_append _ _
  have hPrefix : (bytes ++ [ch]) <+: bytes' := by
    refine List.prefix_of_prefix_length_le hHere hThere ?_
    simp only [List.length_append, List.length_singleton]
    omega
  obtain ⟨tail, rfl⟩ := hPrefix
  rw [List.append_assoc, List.singleton_append, read_stopped hRead hControl] at hRead'
  cases hRead'

end Scanner

end Httpuv.RequestParser
