import Imputio.Lib.Transition
import Mathlib.Data.List.Infix
import Mathlib.Logic.Function.Basic

/-! An append-only log that any number of readers follow, each from its own position. -/

namespace Broadcast

open Transition

variable {κ τ : Type*}

/-- The published log and, for each reader that follows it, how far it has read. -/
structure State (κ τ : Type*) where
  log : List τ
  cursor : κ → Option Nat

/-- What can happen to a log and its readers. -/
inductive Action (κ τ : Type*) where
  | join (reader : κ)
  | leave (readers : List κ)
  | publish (event : τ)
  | read (reader : κ) (events : List τ)
  | idle

/-- A log nobody follows yet. -/
def State.empty : State κ τ := ⟨[], fun _ => none⟩

/-- What a reader still has ahead of it. -/
def State.unread (s : State κ τ) (reader : κ) : Option (List τ) :=
  -- A reader that does not follow the log has no queue at all.
  (s.cursor reader).map fun position => s.log.drop position

/-- Readers join at the end of the log and read forward without skipping. -/
inductive Step [DecidableEq κ] : State κ τ → Action κ τ → State κ τ → Prop
  | join {s : State κ τ} {reader : κ} : s.cursor reader = none →
      Step s (.join reader)
        { s with cursor := Function.update s.cursor reader (some s.log.length) }
  | leave {s : State κ τ} {readers : List κ} :
      Step s (.leave readers)
        { s with cursor := fun reader => if reader ∈ readers then none else s.cursor reader }
  | publish {s : State κ τ} {event : τ} :
      Step s (.publish event) { s with log := s.log ++ [event] }
  | read {s : State κ τ} {reader : κ} {events : List τ} {position : Nat} :
      s.cursor reader = some position → events <+: s.log.drop position →
      Step s (.read reader events)
        { s with cursor := Function.update s.cursor reader (some (position + events.length)) }
  | idle {s : State κ τ} : Step s .idle s

/-- The events one action hands to a reader. -/
def Action.readBy [DecidableEq κ] (reader : κ) : Action κ τ → List τ
  | .read who events => if who = reader then events else []
  | _ => []

/-- The events one action adds to the log. -/
def Action.published : Action κ τ → List τ
  | .publish event => [event]
  | _ => []

/-- No reader is ahead of the log. -/
def State.Bounded (s : State κ τ) : Prop :=
  ∀ reader position, s.cursor reader = some position → position ≤ s.log.length

variable [DecidableEq κ]

/-- Positions stay inside the log. -/
theorem Step.bounded {s t : State κ τ} {act : Action κ τ} (taken : Step s act t)
    (bounded : s.Bounded) : t.Bounded := by
  -- Only joining and reading move a position, and both stop at the end of the log.
  intro reader position at_
  cases taken with
  | @join who absent =>
    by_cases same : reader = who
    · subst same
      simp only [Function.update_self, Option.some.injEq] at at_
      exact at_.ge
    · exact bounded reader position (by simpa [same] using at_)
  | @leave readers =>
    by_cases gone : reader ∈ readers
    · simp [gone] at at_
    · exact bounded reader position (by simpa [gone] using at_)
  | publish =>
    have before := bounded reader position at_
    simp only [List.length_append, List.length_singleton]
    omega
  | @read who events place found fits =>
    by_cases same : reader = who
    · subst same
      have before := bounded reader place found
      have size := fits.length_le
      simp only [Function.update_self, Option.some.injEq] at at_
      simp only [List.length_drop] at size
      change position ≤ s.log.length
      omega
    · exact bounded reader position (by simpa [same] using at_)
  | idle => exact bounded reader position at_

/--
While a reader stays, one step moves events from its unread part to what it has read and
appends what is published.
-/
theorem Step.unread_eq {s t : State κ τ} {act : Action κ τ} {reader : κ}
    (taken : Step s act t) (bounded : s.Bounded) {before after : List τ}
    (atStart : s.unread reader = some before) (atEnd : t.unread reader = some after) :
    act.readBy reader ++ after = before ++ act.published := by
  -- The reader has a position before and after, so no case can be a fresh join or a departure.
  unfold State.unread at atStart atEnd
  obtain ⟨position, placed, rfl⟩ := Option.map_eq_some_iff.mp atStart
  obtain ⟨later, relocated, rfl⟩ := Option.map_eq_some_iff.mp atEnd
  have inside := bounded reader position placed
  cases taken with
  | @join who absent =>
    by_cases same : reader = who
    · subst same
      rw [absent] at placed
      contradiction
    · have kept : later = position := by simpa [same, placed, eq_comm] using relocated
      simp [Action.readBy, Action.published, kept]
  | @leave readers =>
    by_cases gone : reader ∈ readers
    · simp [gone] at relocated
    · have kept : later = position := by simpa [gone, placed, eq_comm] using relocated
      simp [Action.readBy, Action.published, kept]
  | publish =>
    have kept : later = position := by simpa [placed, eq_comm] using relocated
    simp [Action.readBy, Action.published, kept, List.drop_append_of_le_length inside]
  | @read who events place found fits =>
    by_cases same : reader = who
    · subst same
      -- What is read is a prefix of the unread part, and the rest stays unread.
      have here : place = position := by simpa [found] using placed
      subst here
      have moved : later = place + events.length := by simpa [eq_comm] using relocated
      obtain ⟨rest, split⟩ := fits
      have left : s.log.drop later = rest := by
        rw [moved, ← List.drop_drop, ← split, List.drop_left]
      change (if reader = reader then events else []) ++ s.log.drop later = _ ++ []
      rw [if_pos rfl, left, split, List.append_nil]
    · have kept : later = position := by simpa [same, placed, eq_comm] using relocated
      have other : ¬ who = reader := fun equal => same equal.symm
      simp [Action.readBy, Action.published, kept, other]
  | idle =>
    have kept : later = position := by simpa [placed, eq_comm] using relocated
    simp [Action.readBy, Action.published, kept]

/-- A reader follows the log in a state. -/
def Follows (reader : κ) (s : State κ τ) : Prop := ∃ queue, s.unread reader = some queue

/--
Over a whole stay, what a reader has read followed by what it has left is what it had at the
start followed by everything published since.
-/
theorem Run.read_then_unread {s t : State κ τ} {acts : List (Action κ τ)} {reader : κ}
    (run : Run (Into (Follows reader) Step) s acts t) (bounded : s.Bounded) {before : List τ}
    (atStart : s.unread reader = some before) :
    ∃ after, t.unread reader = some after ∧
      acts.flatMap (Action.readBy reader) ++ after = before ++ acts.flatMap Action.published := by
  -- The equation of each step is appended to the one of the run before it.
  suffices kept : t.Bounded ∧ ∃ after, t.unread reader = some after ∧
      acts.flatMap (Action.readBy reader) ++ after = before ++ acts.flatMap Action.published from
    kept.2
  induction run with
  | nil => exact ⟨bounded, before, atStart, by simp⟩
  | @snoc acts mid last act _ taken ih =>
    obtain ⟨midBounded, queue, atMid, equation⟩ := ih
    obtain ⟨step, after, atEnd⟩ := taken
    refine ⟨step.bounded midBounded, after, atEnd, ?_⟩
    have one := step.unread_eq midBounded atMid atEnd
    calc (acts ++ [act]).flatMap (Action.readBy reader) ++ after
        = acts.flatMap (Action.readBy reader) ++ (act.readBy reader ++ after) := by simp
      _ = acts.flatMap (Action.readBy reader) ++ (queue ++ act.published) := by rw [one]
      _ = before ++ acts.flatMap Action.published ++ act.published := by
        rw [← List.append_assoc, equation]
      _ = before ++ (acts ++ [act]).flatMap Action.published := by simp

end Broadcast
