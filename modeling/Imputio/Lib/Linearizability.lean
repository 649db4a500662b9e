import Mathlib.Data.List.Nodup
import Imputio.Lib.Transition

/-! Linearizability: calls on a shared object take effect one at a time, while they are made. -/

namespace Linearizability

open Transition

variable {σ ε κ ι ο : Type*}

/-- What the callers of a shared object see: calls that are made, and calls that return. -/
inductive Visible (κ ι ο : Type*) where
  | invoked (call : κ) (op : ι)
  | returned (call : κ) (result : ο)
  deriving DecidableEq, Repr

/-- How to read an effect; an effect that nobody waits for belongs to no call. -/
structure Interface (ε κ ι ο : Type*) where
  call : ε → Option κ
  op : ε → ι
  result : ε → Option ο

/-- The call that is made. -/
def Visible.made : Visible κ ι ο → Option κ
  | .invoked call _ => some call
  | .returned _ _ => none

/-- The call that returns. -/
def Visible.ended : Visible κ ι ο → Option κ
  | .invoked _ _ => none
  | .returned call _ => some call

/-- One element comes before another one in a list. -/
def Precedes {α : Type*} (first second : α) (list : List α) : Prop := [first, second].Sublist list

/-- Every call is made once, and returns at most once and only after it was made. -/
structure WellFormed (history : List (Visible κ ι ο)) : Prop where
  madeOnce : (history.filterMap Visible.made).Nodup
  endedOnce : (history.filterMap Visible.ended).Nodup
  inOrder : ∀ call result, .returned call result ∈ history →
    ∃ op, Precedes (.invoked call op) (.returned call result) history

/-- The calls whose effects are in a list. -/
def Interface.calls (face : Interface ε κ ι ο) (order : List ε) : List κ :=
  order.filterMap face.call

/--
An order of effects explains what the callers have seen.

The object takes the effects one after the other. Each is that of a call that was made, no call has
two, and a call that has returned has one with its result. Calls that were made after others had
returned come after them.
-/
structure Linearizes (face : Interface ε κ ι ο) (step : σ → ε → σ → Prop) (start : σ)
    (history : List (Visible κ ι ο)) (order : List ε) (last : σ) : Prop where
  sequential : Run step start order last
  once : (face.calls order).Nodup
  asked : ∀ effect ∈ order, ∀ call, face.call effect = some call →
    .invoked call (face.op effect) ∈ history
  answered : ∀ call result, .returned call result ∈ history →
    ∃ effect ∈ order, face.call effect = some call ∧ face.result effect = some result
  realTime : ∀ first result second op,
    Precedes (.returned first result) (.invoked second op) history →
      second ∈ face.calls order → Precedes first second (face.calls order)

/-- A pair in a longer list ends with its last element, or it was there before. -/
theorem precedes_concat {α : Type*} {first second last : α} {list : List α} :
    Precedes first second (list ++ [last]) ↔
      Precedes first second list ∨ second = last ∧ first ∈ list := by
  -- A sublist of a longer list has a part in the list before and a part in its last element.
  unfold Precedes
  constructor
  · intro pair
    -- The pair is split where the list before ends.
    obtain ⟨front, back, split, inFront, inBack⟩ := List.sublist_append_iff.mp pair
    rcases List.sublist_singleton.mp inBack with rfl | rfl
    · rw [List.append_nil] at split
      exact .inl (split ▸ inFront)
    · have parts : [first] ++ [second] = front ++ [last] := split
      obtain ⟨rfl, same⟩ := List.append_inj' parts rfl
      exact .inr ⟨List.singleton_inj.mp same, List.singleton_sublist.mp inFront⟩
  · rintro (before | ⟨rfl, among⟩)
    · exact before.trans (List.sublist_append_left _ _)
    · exact (List.singleton_sublist.mpr among).append (List.Sublist.refl [second])

/-- What comes after the only occurrence of an element is behind it. -/
theorem mem_behind {α : Type*} {first second : α} {front back : List α}
    (distinct : (front ++ first :: back).Nodup)
    (pair : Precedes first second (front ++ first :: back)) : second ∈ back := by
  -- The pair cannot begin in front, nor behind, since its first element is not there.
  obtain ⟨-, tail, apart⟩ := List.nodup_append.mp distinct
  obtain ⟨inFront, inBack, split, front_sub, back_sub⟩ := List.sublist_append_iff.mp pair
  cases inFront with
  | nil =>
    obtain rfl : [first, second] = inBack := split
    cases back_sub with
    | cons _ behind =>
      exact absurd (behind.subset List.mem_cons_self) (List.nodup_cons.mp tail).1
    | cons_cons _ behind => exact List.singleton_sublist.mp behind
  | cons head rest =>
    obtain ⟨rfl, -⟩ := List.cons.inj split
    exact absurd rfl (apart first (front_sub.subset List.mem_cons_self) first List.mem_cons_self)

/-- What comes before the only occurrence of an element is in front of it. -/
theorem mem_ahead {α : Type*} {first second : α} {front back : List α}
    (distinct : (front ++ second :: back).Nodup)
    (pair : Precedes first second (front ++ second :: back)) : first ∈ front := by
  -- The same, read from the end.
  have turned : Precedes second first (back.reverse ++ second :: front.reverse) := by
    simpa [Precedes] using List.reverse_sublist.mpr pair
  have once : (back.reverse ++ second :: front.reverse).Nodup := by
    simpa using List.nodup_reverse.mpr distinct
  exact List.mem_reverse.mp (mem_behind once turned)

/-- What comes between the only occurrences of two elements is in the part between them. -/
theorem mem_between {α : Type*} {first middle second : α} {front between back : List α}
    (distinct : (front ++ first :: (between ++ second :: back)).Nodup)
    (after : Precedes first middle (front ++ first :: (between ++ second :: back)))
    (before : Precedes middle second (front ++ first :: (between ++ second :: back))) :
    middle ∈ between := by
  -- It is behind the first one and ahead of the second one.
  have behind : middle ∈ between ++ second :: back := mem_behind distinct after
  have regrouped : front ++ first :: (between ++ second :: back) =
      (front ++ first :: between) ++ second :: back := by simp
  rw [regrouped] at distinct before
  have ahead : middle ∈ front ++ first :: between := mem_ahead distinct before
  -- It is not behind the second one, since it occurs only once.
  rcases List.mem_append.mp behind with inside | late
  · exact inside
  · obtain ⟨-, -, apart⟩ := List.nodup_append.mp distinct
    exact absurd rfl (apart middle ahead middle late)

variable {face : Interface ε κ ι ο} {step : σ → ε → σ → Prop} {start last : σ}
  {history : List (Visible κ ι ο)} {order : List ε}

/-- A history in which nothing happens is well formed. -/
theorem WellFormed.nil : WellFormed ([] : List (Visible κ ι ο)) where
  madeOnce := List.nodup_nil
  endedOnce := List.nodup_nil
  inOrder := by simp

/-- A call that was not made before may be made. -/
theorem WellFormed.invoke (formed : WellFormed history) {call : κ}
    (fresh : call ∉ history.filterMap Visible.made) (op : ι) :
    WellFormed (history ++ [.invoked call op]) where
  madeOnce := by
    -- No call ends in this step, and the pairs that there were come first.
    rw [List.filterMap_append]
    refine formed.madeOnce.append (by simp [Visible.made]) fun other before now => ?_
    obtain rfl : other = call := by simpa [Visible.made, eq_comm] using now
    exact fresh before
  endedOnce := by
    rw [List.filterMap_append, List.filterMap_cons_none rfl, List.filterMap_nil, List.append_nil]
    exact formed.endedOnce
  inOrder := by
    intro other result there
    obtain ⟨op, pair⟩ := formed.inOrder other result (by simpa using there)
    exact ⟨op, precedes_concat.mpr (.inl pair)⟩

/-- A call that was made may return if it has not returned before. -/
theorem WellFormed.respond (formed : WellFormed history) {call : κ} {op : ι}
    (there : .invoked call op ∈ history) (running : call ∉ history.filterMap Visible.ended)
    (result : ο) : WellFormed (history ++ [.returned call result]) where
  madeOnce := by
    -- No call is made in this step, and its own one was made before.
    rw [List.filterMap_append, List.filterMap_cons_none rfl, List.filterMap_nil, List.append_nil]
    exact formed.madeOnce
  endedOnce := by
    rw [List.filterMap_append]
    refine formed.endedOnce.append (by simp [Visible.ended]) fun other before now => ?_
    obtain rfl : other = call := by simpa [Visible.ended, eq_comm] using now
    exact running before
  inOrder := by
    intro other value among
    rcases List.mem_append.mp among with before | now
    -- A call that returned before is in order, and this one was made.
    · obtain ⟨op, pair⟩ := formed.inOrder other value before
      exact ⟨op, precedes_concat.mpr (.inl pair)⟩
    · obtain ⟨rfl, rfl⟩ := Visible.returned.inj (List.mem_singleton.mp now)
      exact ⟨op, precedes_concat.mpr (.inr ⟨rfl, there⟩)⟩

/-- A call is made with one operation. -/
theorem WellFormed.op_unique (formed : WellFormed history) {call : κ} {op op' : ι}
    (first : .invoked call op ∈ history) (second : .invoked call op' ∈ history) : op = op' := by
  -- Two different entries for the call would be two occurrences of it among the calls made.
  obtain ⟨front, back, rfl⟩ := List.append_of_mem first
  have distinct := formed.madeOnce
  have there : Visible.made (.invoked call op : Visible κ ι ο) = some call := rfl
  rw [List.filterMap_append, List.filterMap_cons_some there] at distinct
  obtain ⟨-, tail, apart⟩ := List.nodup_append.mp distinct
  rcases List.mem_append.mp second with early | here
  · have among : call ∈ front.filterMap Visible.made := List.mem_filterMap.mpr ⟨_, early, rfl⟩
    exact absurd rfl (apart call among call List.mem_cons_self)
  · rcases List.mem_cons.mp here with same | late
    · exact (Visible.invoked.inj same).2.symm
    · have again : call ∈ back.filterMap Visible.made := List.mem_filterMap.mpr ⟨_, late, rfl⟩
      exact absurd again (List.nodup_cons.mp tail).1

/-- The effects of a call are counted when they happen. -/
theorem Interface.calls_concat (face : Interface ε κ ι ο) (order : List ε) (effect : ε) :
    face.calls (order ++ [effect]) = face.calls order ++ (face.call effect).toList := by
  -- An effect without a call adds nothing.
  unfold calls
  rw [List.filterMap_append]
  cases found : face.call effect <;> simp [found]

/-- A call has an effect exactly when it is counted. -/
theorem Interface.mem_calls {call : κ} :
    call ∈ face.calls order ↔ ∃ effect ∈ order, face.call effect = some call :=
  List.mem_filterMap

/-- Nothing has been seen before the first call. -/
theorem Linearizes.nil : Linearizes face step start [] [] start where
  sequential := .nil
  once := List.nodup_nil
  asked := by simp
  answered := by simp
  realTime := by simp [Interface.calls]

/-- A call may be made at any time if it has had no effect yet. -/
theorem Linearizes.invoke (explained : Linearizes face step start history order last) {call : κ}
    (fresh : call ∉ face.calls order) (op : ι) :
    Linearizes face step start (history ++ [.invoked call op]) order last where
  sequential := explained.sequential
  once := explained.once
  asked := fun effect among named same =>
    List.mem_append_left _ (explained.asked effect among named same)
  answered := by
    -- The order of the effects stays the same, and so does what has returned.
    intro named result there
    rcases List.mem_append.mp there with before | now
    · exact explained.answered named result before
    · simp at now
  realTime := by
    intro first result second op' pair among
    rcases precedes_concat.mp pair with before | ⟨same, -⟩
    · exact explained.realTime first result second op' before among
    · -- The new call has had no effect that could come too early.
      obtain ⟨rfl, -⟩ := Visible.invoked.inj same
      exact absurd among fresh

/-- An effect may happen if nobody waits for it, or if its call was made and had none yet. -/
theorem Linearizes.takeEffect (explained : Linearizes face step start history order last)
    {effect : ε} {next : σ} (taken : step last effect next)
    (waits : ∀ call, face.call effect = some call →
      .invoked call (face.op effect) ∈ history ∧ call ∉ face.calls order) :
    Linearizes face step start history (order ++ [effect]) next where
  sequential := explained.sequential.snoc taken
  once := by
    -- The effect goes to the end of the order, behind those of all calls that have returned.
    rw [face.calls_concat]
    refine explained.once.append (by cases face.call effect <;> simp) fun call before now => ?_
    exact (waits call (Option.mem_toList.mp now)).2 before
  asked := by
    intro other among call same
    rcases List.mem_append.mp among with before | now
    · exact explained.asked other before call same
    · obtain rfl := List.mem_singleton.mp now
      exact (waits call same).1
  answered := by
    intro call result there
    obtain ⟨other, among, found⟩ := explained.answered call result there
    exact ⟨other, List.mem_append_left _ among, found⟩
  realTime := by
    intro first result second op pair among
    rw [face.calls_concat] at among ⊢
    rcases List.mem_append.mp among with before | now
    · exact (explained.realTime first result second op pair before).trans
        (List.sublist_append_left _ _)
    · -- Whatever has returned has had its effect before this one.
      have there : Visible.returned first result ∈ history :=
        pair.subset List.mem_cons_self
      obtain ⟨other, known, named, -⟩ := explained.answered first result there
      have counted : first ∈ face.calls order := Interface.mem_calls.mpr ⟨other, known, named⟩
      exact (List.singleton_sublist.mpr counted).append (List.singleton_sublist.mpr now)

/-- A call may return once it has had its effect, with the result of that. -/
theorem Linearizes.respond (explained : Linearizes face step start history order last) {call : κ}
    {result : ο}
    (had : ∃ effect ∈ order, face.call effect = some call ∧ face.result effect = some result) :
    Linearizes face step start (history ++ [.returned call result]) order last where
  sequential := explained.sequential
  once := explained.once
  asked := fun effect among named same =>
    List.mem_append_left _ (explained.asked effect among named same)
  answered := by
    -- The order of the effects stays the same, and the result is the one of its effect.
    intro named value there
    rcases List.mem_append.mp there with before | now
    · exact explained.answered named value before
    -- The call that returns now has had its effect.
    · obtain ⟨rfl, rfl⟩ := Visible.returned.inj (List.mem_singleton.mp now)
      exact had
  realTime := by
    intro first value second op pair among
    rcases precedes_concat.mp pair with before | ⟨same, -⟩
    · exact explained.realTime first value second op before among
    -- A return is not a call, so no new pair ends with it.
    · cases same

end Linearizability
