import Mathlib.Data.List.Basic
import Mathlib.Data.List.Forall2
import Mathlib.Data.List.Infix

/-! Finite runs of labelled transition systems and the induction rules about them. -/

namespace Transition

variable {σ σ' α α' β γ : Type*}

/-- A finite run: the actions taken, in order, and the state they lead to. -/
inductive Run (step : σ → α → σ → Prop) (start : σ) : List α → σ → Prop
  | nil : Run step start [] start
  | snoc {acts : List α} {mid last : σ} {act : α} :
      Run step start acts mid → step mid act last → Run step start (acts ++ [act]) last

/-- The system that takes a step only when its state and action meet a condition. -/
def Guarded (cond : σ → α → Prop) (step : σ → α → σ → Prop) : σ → α → σ → Prop :=
  fun s act t => cond s act ∧ step s act t

/-- The system whose steps must lead into states with a property. -/
def Into (prop : σ → Prop) (step : σ → α → σ → Prop) : σ → α → σ → Prop :=
  fun s act t => step s act t ∧ prop t

/-- A property holds in every state that a list of actions passes through. -/
def Throughout (step : σ → α → σ → Prop) (start : σ) (prop : σ → Prop) (acts : List α) : Prop :=
  -- Every prefix of the actions reaches one of the states passed through.
  ∀ front s, front <+: acts → Run step start front s → prop s

/-- Every step taken along a list of actions has a property. -/
def EveryStep (step : σ → α → σ → Prop) (start : σ) (prop : σ → α → σ → Prop) (acts : List α) :
    Prop :=
  -- A step is taken from the state that the actions before it lead to.
  ∀ front act s t, front ++ [act] <+: acts → Run step start front s → step s act t → prop s act t

/-- The step relation of an executable system, where no result means the action is not enabled. -/
def Steps (next : σ → α → Option σ) : σ → α → σ → Prop :=
  fun s act t => next s act = some t

/-- Taking a list of actions one after the other in an executable system. -/
def replay (next : σ → α → Option σ) : σ → List α → Option σ
  | s, [] => some s
  | s, act :: acts => (next s act).bind fun t => replay next t acts

/--
What an executable system shows along a list of actions.

A step shows what its label says about the state before it, which is one thing at most.
-/
def observed (next : σ → α → Option σ) (label : σ → α → Option β) : σ → List α → List β
  | _, [] => []
  | s, act :: acts =>
    (label s act).toList ++ (next s act).elim [] fun t => observed next label t acts

section Runs

variable {step : σ → α → σ → Prop} {start mid last : σ} {acts acts' : List α} {act : α}

/-- A single step is a run of one action. -/
theorem Run.single (taken : step start act last) : Run step start [act] last := by
  -- The run of no actions is extended by the step.
  have run := Run.snoc Run.nil taken
  simpa using run

/-- Runs compose when the second starts where the first ends. -/
theorem Run.append (first : Run step start acts mid) (second : Run step mid acts' last) :
    Run step start (acts ++ acts') last := by
  -- The induction follows the second run, whose last action is the last one of both.
  induction second with
  | nil => simpa using first
  | snoc _ taken ih =>
    rw [← List.append_assoc]
    exact .snoc ih taken

/-- A step in front of a run extends it. -/
theorem Run.cons (taken : step start act mid) (rest : Run step mid acts last) :
    Run step start (act :: acts) last :=
  -- The single step is itself a run.
  (Run.single taken).append rest

/-- A run of no actions stays where it starts. -/
theorem Run.eq_of_nil (run : Run step start [] last) : last = start := by
  -- A run with a last step has an action.
  generalize named : ([] : List α) = taken at run
  cases run with
  | nil => rfl
  | snoc _ _ => simp at named

/-- The last step of a run can be taken off. -/
theorem Run.unsnoc (run : Run step start (acts ++ [act]) last) :
    ∃ mid, Run step start acts mid ∧ step mid act last := by
  -- The list of actions must be a variable before the run is taken apart.
  generalize named : acts ++ [act] = taken at run
  cases run with
  | nil => simp at named
  | snoc before taken =>
    obtain ⟨rfl, same⟩ := List.append_inj' named rfl
    obtain rfl : act = _ := by simpa using same
    exact ⟨_, before, taken⟩

/-- A run over two lists of actions passes through the state between them. -/
theorem Run.split (run : Run step start (acts ++ acts') last) :
    ∃ mid, Run step start acts mid ∧ Run step mid acts' last := by
  -- The second list is consumed from its end.
  induction acts' using List.reverseRecOn generalizing last with
  | nil => exact ⟨last, by simpa using run, .nil⟩
  | append_singleton acts' act ih =>
    rw [← List.append_assoc] at run
    obtain ⟨before, earlier, taken⟩ := run.unsnoc
    obtain ⟨mid, first, second⟩ := ih earlier
    exact ⟨mid, first, second.snoc taken⟩

/-- The first step of a run can be taken off. -/
theorem Run.uncons (run : Run step start (act :: acts) last) :
    ∃ mid, step start act mid ∧ Run step mid acts last := by
  -- The first action is a run by itself.
  have whole : Run step start ([act] ++ acts) last := run
  obtain ⟨mid, first, rest⟩ := whole.split
  have single : Run step start ([] ++ [act]) mid := first
  obtain ⟨before, nothing, taken⟩ := single.unsnoc
  obtain rfl := nothing.eq_of_nil
  exact ⟨mid, taken, rest⟩

/-- What holds at the start and is kept by every step holds at the end of every run. -/
theorem Run.invariant {inv : σ → Prop} (run : Run step start acts last) (init : inv start)
    (keep : ∀ s act t, inv s → step s act t → inv t) : inv last := by
  -- By induction on the run, whose last step keeps what holds before it.
  induction run with
  | nil => exact init
  | snoc _ taken ih => exact keep _ _ _ ih taken

/-- What holds of every action that can be taken holds of all actions of a run. -/
theorem Run.forall_mem {prop : α → Prop} (run : Run step start acts last)
    (taken : ∀ s act t, step s act t → prop act) : ∀ act ∈ acts, prop act := by
  -- Induction on the run: each action is that of one of its steps.
  induction run with
  | nil => simp
  | snoc _ stepped ih =>
    intro act among
    rcases List.mem_append.mp among with earlier | now
    · exact ih act earlier
    · obtain rfl := List.mem_singleton.mp now
      exact taken _ _ _ stepped

/-- A run of one system is a run of every system that has all of its steps. -/
theorem Run.mono {step' : σ → α → σ → Prop} (run : Run step start acts last)
    (sub : ∀ s act t, step s act t → step' s act t) : Run step' start acts last := by
  -- By induction on the run, step by step.
  induction run with
  | nil => exact .nil
  | snoc _ taken ih => exact ih.snoc (sub _ _ _ taken)

/-- A map of the states and actions that carries every step carries every run. -/
theorem Run.map {step' : σ' → β → σ' → Prop} {view : σ → σ'} {name : α → β}
    (run : Run step start acts last)
    (carry : ∀ s act t, step s act t → step' (view s) (name act) (view t)) :
    Run step' (view start) (acts.map name) (view last) := by
  -- By induction on the run, step by step.
  induction run with
  | nil => exact .nil
  | snoc _ taken ih =>
    rw [List.map_append]
    exact ih.snoc (carry _ _ _ taken)

/-- Forgetting the condition of a guarded run leaves a run. -/
theorem Run.unguard {cond : σ → α → Prop} (run : Run (Guarded cond step) start acts last) :
    Run step start acts last :=
  run.mono fun _ _ _ taken => taken.2

/-- Where each action has at most one result, the actions determine the state reached. -/
theorem Run.functional {first second : σ}
    (single : ∀ s act t u, step s act t → step s act u → t = u)
    (run : Run step start acts first) (other : Run step start acts second) : first = second := by
  -- Both runs end in the same action, taken from the same state by the hypothesis.
  induction run generalizing second with
  | nil => exact other.eq_of_nil.symm
  | snoc _ taken ih =>
    obtain ⟨_, earlier, last⟩ := other.unsnoc
    rw [← ih earlier] at last
    exact single _ _ _ _ taken last

/--
A property that each step keeps exactly under a condition holds throughout a run exactly when
every step of the run meets the condition.
-/
theorem Run.throughout_iff_guarded {inv prop : σ → Prop} {cond : σ → α → Prop}
    (single : ∀ s act t u, step s act t → step s act u → t = u)
    (initInv : inv start) (keep : ∀ s act t, inv s → step s act t → inv t)
    (init : prop start)
    (exact : ∀ s act t, inv s → prop s → step s act t → (prop t ↔ cond s act))
    (run : Run step start acts last) :
    Throughout step start prop acts ↔ Run (Guarded cond step) start acts last := by
  -- By induction one way; the other way, the two properties together are kept by a guarded step.
  constructor
  · -- A run that keeps the property can only have taken steps that meet the condition.
    intro through
    induction run with
    | nil => exact .nil
    | @snoc acts mid last act earlier taken ih =>
      have before := ih fun front s fits reached =>
        through front s (fits.trans (List.prefix_append _ _)) reached
      have atMid : prop mid := through acts mid (List.prefix_append _ _) earlier
      have atLast : prop last := through _ last List.prefix_rfl (earlier.snoc taken)
      have atInv : inv mid := earlier.invariant initInv keep
      exact before.snoc ⟨(exact mid act last atInv atMid taken).mp atLast, taken⟩
  · -- Every prefix of a guarded run is guarded, so the property follows step by step.
    intro guarded front s fits reached
    obtain ⟨rest, rfl⟩ := fits
    obtain ⟨mid, first, _⟩ := guarded.split
    rw [← Run.functional single first.unguard reached]
    have kept : ∀ s act t, (inv s ∧ prop s) → Guarded cond step s act t → (inv t ∧ prop t) := by
      rintro s act t ⟨heldInv, held⟩ ⟨meets, taken⟩
      exact ⟨keep s act t heldInv taken, (exact s act t heldInv held taken).mpr meets⟩
    exact (first.invariant ⟨initInv, init⟩ kept).2

/--
A property that a step has exactly under a condition belongs to every step of a run exactly when
they all meet the condition.
-/
theorem Run.everyStep_iff_guarded {prop : σ → α → σ → Prop} {cond : σ → α → Prop}
    (single : ∀ s act t u, step s act t → step s act u → t = u)
    (exact : ∀ s act t, step s act t → (prop s act t ↔ cond s act))
    (run : Run step start acts last) :
    EveryStep step start prop acts ↔ Run (Guarded cond step) start acts last := by
  -- Both ways the last step is split off, and the run up to it is the same one.
  constructor
  · -- The last step is one of those that have the property.
    intro every
    induction run with
    | nil => exact .nil
    | @snoc acts mid last act earlier taken ih =>
      have before := ih fun front other s t fits reached step =>
        every front other s t (fits.trans (List.prefix_append _ _)) reached step
      have now := every acts act mid last List.prefix_rfl earlier taken
      exact before.snoc ⟨(exact mid act last taken).mp now, taken⟩
  · intro guarded front act s t fits reached step
    -- The guarded run takes the same steps.
    obtain ⟨rest, rfl⟩ := fits
    obtain ⟨mid, first, -⟩ := guarded.split
    obtain ⟨before, earlier, meets, -⟩ := first.unsnoc
    obtain rfl : before = s := Run.functional single earlier.unguard reached
    exact (exact before act t step).mpr meets

/--
A property that a step keeps only under a condition, and that never comes back, holds at the end
of a run exactly when every step of the run met the condition.
-/
theorem Run.last_iff_guarded {inv prop : σ → Prop} {cond : σ → α → Prop}
    (initInv : inv start) (keep : ∀ s act t, inv s → step s act t → inv t)
    (init : prop start)
    (exact : ∀ s act t, inv s → step s act t → (prop t ↔ prop s ∧ cond s act))
    (run : Run step start acts last) :
    prop last ↔ Run (Guarded cond step) start acts last := by
  -- The property never comes back, so at the end it tells of all steps before.
  constructor
  · -- What holds at the end held before every step.
    intro holds
    induction run with
    | nil => exact .nil
    | @snoc acts mid last act earlier taken ih =>
      have atInv : inv mid := earlier.invariant initInv keep
      obtain ⟨before, meets⟩ := (exact mid act last atInv taken).mp holds
      exact (ih before).snoc ⟨meets, taken⟩
  · intro guarded
    have kept : ∀ s act t, inv s ∧ prop s → Guarded cond step s act t → inv t ∧ prop t := by
      rintro s act t ⟨heldInv, held⟩ ⟨meets, taken⟩
      exact ⟨keep s act t heldInv taken, (exact s act t heldInv taken).mpr ⟨held, meets⟩⟩
    exact (guarded.invariant ⟨initInv, init⟩ kept).2

/--
A simulation carries every run of the first system to a run of the second.

The labels are matched one by one, so anything read off the actions is carried along.
-/
theorem Run.simulate {step' : σ' → β → σ' → Prop} {rel : σ → σ' → Prop} {label : α → β → Prop}
    (sim : ∀ s act t s', rel s s' → step s act t →
      ∃ act' t', step' s' act' t' ∧ rel t t' ∧ label act act')
    {start' : σ'} (related : rel start start') (run : Run step start acts last) :
    ∃ acts' last', Run step' start' acts' last' ∧ rel last last' ∧
      List.Forall₂ label acts acts' := by
  -- Induction on the run: the relation is carried along step by step.
  induction run with
  | nil => exact ⟨[], start', .nil, related, .nil⟩
  | snoc _ taken ih =>
    obtain ⟨acts', mid', run', related', labels⟩ := ih
    obtain ⟨act', last', taken', lastRelated, labelled⟩ := sim _ _ _ _ related' taken
    refine ⟨acts' ++ [act'], last', run'.snoc taken', lastRelated, ?_⟩
    exact List.rel_append labels (.cons labelled .nil)

/-- A simulation that answers every step with a run of known actions carries every run to a run. -/
theorem Run.expand {step' : σ' → β → σ' → Prop} {rel : σ → σ' → Prop} {expand : α → List β}
    (sim : ∀ s act t s', rel s s' → step s act t → ∃ t', Run step' s' (expand act) t' ∧ rel t t')
    {start' : σ'} (related : rel start start') (run : Run step start acts last) :
    ∃ last', Run step' start' (acts.flatMap expand) last' ∧ rel last last' := by
  -- By induction on the run, where the answers to its steps are put one after the other.
  induction run with
  | nil => exact ⟨start', .nil, related⟩
  | @snoc acts mid last act _ taken ih =>
    obtain ⟨mid', run', met⟩ := ih
    -- The answer to the last step is a run from where the answers before it lead.
    obtain ⟨last', answer, kept⟩ := sim _ _ _ _ met taken
    rw [List.flatMap_append, List.flatMap_singleton]
    exact ⟨last', run'.append answer, kept⟩

/-- A simulation that answers every step with a run carries every run to a run. -/
theorem Run.simulate_runs {step' : σ' → β → σ' → Prop} {rel : σ → σ' → Prop}
    (sim : ∀ s act t s', rel s s' → step s act t → ∃ acts' t', Run step' s' acts' t' ∧ rel t t')
    {start' : σ'} (related : rel start start') (run : Run step start acts last) :
    ∃ acts' last', Run step' start' acts' last' ∧ rel last last' := by
  -- The answers are put one after the other along the induction.
  induction run with
  | nil => exact ⟨[], start', .nil, related⟩
  | snoc _ taken ih =>
    obtain ⟨acts', mid', run', related'⟩ := ih
    obtain ⟨more, last', answer, lastRelated⟩ := sim _ _ _ _ related' taken
    exact ⟨acts' ++ more, last', run'.append answer, lastRelated⟩

end Runs

section Executable

variable {next : σ → α → Option σ}

/-- An executable system has at most one result for each action. -/
theorem steps_functional (s : σ) (act : α) (t u : σ)
    (first : Steps next s act t) (second : Steps next s act u) : t = u :=
  -- Both are the value of one function call.
  Option.some.inj (first.symm.trans second)

/-- Replaying a list of actions successfully gives a run. -/
theorem Run.of_replay {start last : σ} {acts : List α}
    (replayed : replay next start acts = some last) : Run (Steps next) start acts last := by
  -- Induction on the list, along the steps that the replay takes.
  induction acts generalizing start with
  | nil =>
    obtain rfl : start = last := by simpa [replay] using replayed
    exact .nil
  | cons act acts ih =>
    obtain ⟨mid, taken, rest⟩ := Option.bind_eq_some_iff.mp replayed
    exact .cons taken (ih rest)

/-- Replaying two lists of actions replays the second one from where the first one leads. -/
theorem replay_append (s : σ) (acts acts' : List α) :
    replay next s (acts ++ acts') = (replay next s acts).bind (replay next · acts') := by
  -- By induction on the first list.
  induction acts generalizing s with
  | nil => rfl
  | cons act acts ih =>
    rw [List.cons_append, replay, replay, Option.bind_assoc]
    exact Option.bind_congr fun t _ => ih t

/-- The actions of a run can be replayed. -/
theorem Run.replayed {start last : σ} {acts : List α} (run : Run (Steps next) start acts last) :
    replay next start acts = some last := by
  -- By induction on the run, whose last action is replayed after the others.
  induction run with
  | nil => rfl
  | snoc _ taken ih =>
    rw [replay_append, ih, Option.bind_some, replay, taken]
    rfl

/-- An action that is enabled shows its label, and the rest is shown from where it leads. -/
theorem observed_cons {label : σ → α → Option β} {s t : σ} {act : α} {acts : List α}
    (taken : next s act = some t) :
    observed next label s (act :: acts) =
      (label s act).toList ++ observed next label t acts := by
  rw [observed, taken, Option.elim_some]

/--
An executable system that is simulated by another one reaches related states, and it shows what
the other one shows.
-/
theorem Run.observed_refines {next' : σ' → α' → Option σ'} {name : α → α'} {rel : σ → σ' → Prop}
    {label : σ → α → Option β} {label' : σ' → α' → Option β}
    (sim : ∀ s act t s', rel s s' → next s act = some t →
      label s act = label' s' (name act) ∧ ∃ t', next' s' (name act) = some t' ∧ rel t t')
    {start last : σ} {start' : σ'} {acts : List α} (related : rel start start')
    (run : Run (Steps next) start acts last) :
    ∃ last', Run (Steps next') start' (acts.map name) last' ∧ rel last last' ∧
      observed next label start acts = observed next' label' start' (acts.map name) := by
  -- The induction takes the first step off the replay of the run.
  have replayed := run.replayed
  clear run
  induction acts generalizing start start' with
  | nil =>
    obtain rfl : start = last := by simpa [replay] using replayed
    exact ⟨start', .nil, related, rfl⟩
  | cons act acts ih =>
    obtain ⟨mid, taken, rest⟩ := Option.bind_eq_some_iff.mp replayed
    obtain ⟨shown, mid', taken', related'⟩ := sim _ _ _ _ related taken
    obtain ⟨last', run', lastRelated, same⟩ := ih related' rest
    refine ⟨last', .cons taken' run', lastRelated, ?_⟩
    rw [observed_cons taken, List.map_cons, observed_cons taken', shown, same]

/-- What is shown along two lists of actions is shown along the first and then the second. -/
theorem observed_append {label : σ → α → Option β} (s : σ) (acts acts' : List α) :
    observed next label s (acts ++ acts') = observed next label s acts ++
      (replay next s acts).elim [] fun t => observed next label t acts' := by
  -- By induction on the first list, whose first action takes its step on both sides.
  induction acts generalizing s with
  | nil => rfl
  | cons act acts ih =>
    rw [List.cons_append, observed, observed, replay, List.append_assoc]
    -- Where the first list gets stuck, nothing more is shown on either side.
    cases next s act with
    | none => rfl
    | some t => exact congrArg _ (ih t)

/-- The last step of a run shows what its label says. -/
theorem Run.observed_snoc {label : σ → α → Option β} {start last : σ} {acts : List α}
    (run : Run (Steps next) start acts last) (act : α) :
    observed next label start (acts ++ [act]) =
      observed next label start acts ++ (label last act).toList := by
  rw [observed_append, run.replayed, Option.elim_some, observed]
  -- Nothing comes after the last action.
  have silent : ((next last act).elim [] fun t => observed next label t []) = [] := by
    cases next last act <;> rfl
  rw [silent, List.append_nil]

/-- What is shown in one step counts once if it is what is counted. -/
theorem count_toList [DecidableEq β] [BEq β] [LawfulBEq β] (shown : Option β) (counted : β) :
    shown.toList.count counted = if shown = some counted then 1 else 0 := by
  -- There is nothing to count, or one value.
  cases shown with
  | none => rfl
  | some value => simp [List.count_singleton, beq_iff_eq]

/-- Labels that are read off other labels are seen where those are. -/
theorem observed_filterMap {label : σ → α → Option β} {label' : σ → α → Option γ}
    {read : β → Option γ} (reads : ∀ s act, label' s act = (label s act).bind read) (s : σ)
    (acts : List α) :
    observed next label' s acts = (observed next label s acts).filterMap read := by
  -- By induction on the actions, each of which is read where it is shown.
  induction acts generalizing s with
  | nil => rfl
  | cons act acts ih =>
    rw [observed, observed, reads, List.filterMap_append]
    congr 1
    · cases label s act with
      | none => rfl
      | some shown => cases seen : read shown <;> simp [seen]
    · -- Where the action is not enabled, nothing more is seen on either side.
      cases next s act with
      | none => rfl
      | some t => exact ih t

/--
A part of a system does along a run what the labels of the steps tell it to do.

What the steps let see of the part is what it shows by itself. The part may be gone at some time, as
long as it does not come back.
-/
theorem Run.project {label : σ → α → Option β} {next' : σ' → β → Option σ'}
    {seen : σ → α → Option γ} {seen' : σ' → β → Option γ} {rel : σ → σ' → Prop} {there : σ → Prop}
    (stays : ∀ s act t, next s act = some t → there t → there s)
    (sim : ∀ s act t s', there t → rel s s' → next s act = some t →
      (label s act = none ∧ seen s act = none ∧ rel t s') ∨
        ∃ shown t', label s act = some shown ∧ next' s' shown = some t' ∧
          seen s act = seen' s' shown ∧ rel t t')
    {start last : σ} {start' : σ'} {acts : List α} (related : rel start start')
    (run : Run (Steps next) start acts last) (still : there last) :
    ∃ last', Run (Steps next') start' (observed next label start acts) last' ∧ rel last last' ∧
      observed next seen start acts =
        observed next' seen' start' (observed next label start acts) := by
  -- By induction on the run: what is there after the last step was there before it.
  induction run with
  | nil => exact ⟨start', .nil, related, rfl⟩
  | @snoc acts mid last act earlier taken ih =>
    obtain ⟨mid', run', related', same⟩ := ih (stays _ _ _ taken still)
    rw [earlier.observed_snoc, earlier.observed_snoc, same]
    -- The last step tells the part what to do, or it does not concern it.
    rcases sim _ _ _ _ still related' taken with
      ⟨silent, unseen, kept⟩ | ⟨shown, last', told, taken', agrees, kept⟩
    · rw [silent, unseen]
      simp only [Option.toList_none, List.append_nil]
      exact ⟨mid', run', kept, trivial⟩
    · rw [told, Option.toList_some, run'.observed_snoc, agrees]
      exact ⟨last', run'.snoc taken', kept, rfl⟩

/-- An action behind a test is enabled exactly when the test passes. -/
theorem enabled_iff {cond : Prop} [Decidable cond] {s t : σ} :
    (if cond then some s else none) = some t ↔ cond ∧ s = t := by
  rw [Option.ite_none_right_eq_some, Option.some.injEq]

/-- An executable system whose steps must meet a decidable condition. -/
def checked (cond : σ → α → Prop) [∀ s act, Decidable (cond s act)] (next : σ → α → Option σ) :
    σ → α → Option σ :=
  fun s act => if cond s act then next s act else none

/-- The steps of the checked system are the guarded steps of the original one. -/
theorem guarded_of_checked {cond : σ → α → Prop} [∀ s act, Decidable (cond s act)] (s : σ)
    (act : α) (t : σ) (taken : Steps (checked cond next) s act t) :
    Guarded cond (Steps next) s act t :=
  Option.ite_none_right_eq_some.mp taken

/-- A replay that passes the condition at every step is a guarded run. -/
theorem Run.of_checked {cond : σ → α → Prop} [∀ s act, Decidable (cond s act)] {start : σ}
    {acts : List α} (replayed : (replay (checked cond next) start acts).isSome = true) :
    ∃ last, Run (Guarded cond (Steps next)) start acts last := by
  obtain ⟨last, reached⟩ := Option.isSome_iff_exists.mp replayed
  exact ⟨last, (Run.of_replay reached).mono guarded_of_checked⟩

/-- A replay whose result passes a test yields a run to a state that passes it. -/
theorem Run.of_replay_test {start : σ} {acts : List α} {test : σ → Bool}
    (replayed : (replay next start acts).map test = some true) :
    ∃ last, Run (Steps next) start acts last ∧ test last = true := by
  obtain ⟨last, reached, passed⟩ := Option.map_eq_some_iff.mp replayed
  exact ⟨last, .of_replay reached, passed⟩

end Executable

end Transition
