import Imputio.Lib.Transition

/-! Channels that hand over in order what was put into them, one by one or in series. -/

namespace Transition

variable {σ α μ ν : Type*}

/--
A channel of a system, as long as it is there: a step takes the oldest message and puts the newest.

The labels say what a step puts into the channel and what it takes from it.
-/
def Relays (next : σ → α → Option σ) (holds : σ → List μ) (puts takes : σ → α → Option μ)
    (there : σ → Prop) : Prop :=
  ∀ s act t, next s act = some t → there t →
    there s ∧ holds s ++ (puts s act).toList = (takes s act).toList ++ holds t

variable {next : σ → α → Option σ} {start last : σ} {acts : List α}

/-- Over a run, what was put into a channel has been taken in that order, or is still in it. -/
theorem Relays.run {holds : σ → List μ} {puts takes : σ → α → Option μ} {there : σ → Prop}
    (relays : Relays next holds puts takes there) (run : Run (Steps next) start acts last)
    (still : there last) :
    holds start ++ observed next puts start acts =
      observed next takes start acts ++ holds last := by
  -- The equation of each step is appended to the one of the run before it.
  induction run with
  | nil => simp [observed]
  | @snoc acts mid last act earlier taken ih =>
    obtain ⟨before, one⟩ := relays _ _ _ taken still
    have equation := ih before
    rw [earlier.observed_snoc, earlier.observed_snoc]
    calc holds start ++ (observed next puts start acts ++ (puts mid act).toList)
        = observed next takes start acts ++ (holds mid ++ (puts mid act).toList) := by
          rw [← List.append_assoc, equation, List.append_assoc]
      _ = observed next takes start acts ++ (takes mid act).toList ++ holds last := by
          rw [one, List.append_assoc]

/--
What was taken from a channel is, in order, the beginning of what was put into it, even if the
channel is gone by now. Nothing can be taken from a channel that is not there.
-/
theorem Relays.run_prefix {holds : σ → List μ} {puts takes : σ → α → Option μ} {there : σ → Prop}
    (relays : Relays next holds puts takes there)
    (offers : ∀ s act, (takes s act).toList <+: holds s)
    (closed : ∀ s act, ¬ there s → takes s act = none) (run : Run (Steps next) start acts last) :
    observed next takes start acts <+: holds start ++ observed next puts start acts := by
  -- By induction on the run; while the channel is there, what is left in it is known exactly.
  induction run with
  | nil => simp [observed]
  | @snoc acts mid last act earlier taken ih =>
    rw [earlier.observed_snoc, earlier.observed_snoc, ← List.append_assoc]
    refine List.IsPrefix.trans ?_ (List.prefix_append _ _)
    by_cases still : there mid
    · -- The last message to be taken is the oldest one that is left.
      rw [relays.run earlier still]
      exact (List.prefix_append_right_inj _).mpr (offers mid act)
    · rw [closed mid act still, Option.toList_none, List.append_nil]
      exact ih

/-- A channel of a part of a system is a channel of the whole system. -/
theorem Relays.pull {σ' α' : Type*} {next' : σ' → α' → Option σ'} {part : σ' → σ} {name : α' → α}
    {holds : σ → List μ} {puts takes : σ → α → Option μ} {there : σ → Prop}
    (follows : ∀ s act t, next' s act = some t → next (part s) (name act) = some (part t))
    (relays : Relays next holds puts takes there) :
    Relays next' (fun s => holds (part s)) (fun s act => puts (part s) (name act))
      (fun s act => takes (part s) (name act)) (fun s => there (part s)) :=
  fun _ _ _ taken still => relays _ _ _ (follows _ _ _ taken) still

/--
Two channels in series, where whoever takes from the first one puts what it makes of it into the
second one: what comes out, and what is still inside, is what was put in.
-/
theorem Relays.series {holds : σ → List μ} {puts takes : σ → α → Option μ} {there : σ → Prop}
    {holds' : σ → List ν} {puts' takes' : σ → α → Option ν} {there' : σ → Prop}
    {pass : μ → Option ν} (first : Relays next holds puts takes there)
    (second : Relays next holds' puts' takes' there')
    (passes : ∀ s act, puts' s act = (takes s act).bind pass)
    (run : Run (Steps next) start acts last) (still : there last) (still' : there' last) :
    holds' start ++ (holds start ++ observed next puts start acts).filterMap pass =
      observed next takes' start acts ++ holds' last ++ (holds last).filterMap pass := by
  -- What was taken from the first channel is what was put into the second one.
  have handed : observed next puts' start acts = (observed next takes start acts).filterMap pass :=
    observed_filterMap passes start acts
  rw [first.run run still, List.filterMap_append, ← handed, ← List.append_assoc,
    second.run run still']

/-- Even if the first of two channels is gone, nothing else comes out and in no other order. -/
theorem Relays.series_prefix {holds : σ → List μ} {puts takes : σ → α → Option μ}
    {there : σ → Prop} {holds' : σ → List ν} {puts' takes' : σ → α → Option ν} {there' : σ → Prop}
    {pass : μ → Option ν} (first : Relays next holds puts takes there)
    (second : Relays next holds' puts' takes' there')
    (passes : ∀ s act, puts' s act = (takes s act).bind pass)
    (offers : ∀ s act, (takes s act).toList <+: holds s)
    (closed : ∀ s act, ¬ there s → takes s act = none) (run : Run (Steps next) start acts last)
    (still' : there' last) :
    observed next takes' start acts ++ holds' last <+:
      holds' start ++ (holds start ++ observed next puts start acts).filterMap pass := by
  -- What comes out of the second channel was put into it, and that was taken from the first.
  rw [← second.run run still', observed_filterMap passes start acts]
  have taken := first.run_prefix offers closed run
  exact (List.prefix_append_right_inj _).mpr (taken.filterMap pass)

end Transition
