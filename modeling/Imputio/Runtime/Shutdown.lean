import Imputio.Runtime.Runtime

/-! When the send of `shutdown` waits for ever: the driver takes one notice at most. -/

namespace Imputio

open Transition

/-- The first call of `run` is between the swap of the flag and the start of the driver. -/
def RunCall.starts : RunCall → Bool
  | .initializing _ => true
  | .storing _ _ => true
  | .starting _ => true
  | _ => false

/-- How many notices the driver takes all in all: one, if it has been started and did not panic. -/
def Driver.takes : Driver → Nat
  | .unstarted => 0
  | .panicked => 0
  | _ => 1

namespace Runtime

variable {r : RuntimeId} {shared shared' : Shared} {rt rt' : Runtime} {step : RuntimeStep}

/-- A call of `shutdown` waits on a full channel, and no driver is left that takes a notice. -/
def Stuck (rt : Runtime) : Prop :=
  (∃ call, rt.shutdowns call = .sending) ∧ rt.send = none ∧ rt.driver.listens = false

/-- The driver is started by the call of `run` that swaps the flag, unless that call panics. -/
structure Orderly (rt : Runtime) : Prop where
  unset : rt.state = false → rt.driver = .unstarted ∧ rt.failed = false ∧
    (rt.call = .idle ∨ ∃ blocking, rt.call = .swapping blocking)
  starts : rt.call.starts = true → rt.state = true ∧ rt.driver = .unstarted ∧ rt.failed = false
  failed : rt.failed = true → rt.driver = .unstarted
  started : rt.state = true → rt.failed = false → rt.call.starts = false → rt.driver ≠ .unstarted

/-- A new runtime has not been started. -/
theorem build_orderly (execs : Nat) (notifier : Notifier) : (build execs notifier).Orderly where
  unset := fun _ => ⟨rfl, rfl, .inl rfl⟩
  starts := by simp [build, RunCall.starts]
  failed := by simp [build]
  started := by simp [build]

/-- The order is a matter of the flag, of the call of `run`, and of whether there is a driver. -/
theorem Orderly.congr (orderly : rt.Orderly) (state : rt'.state = rt.state)
    (failed : rt'.failed = rt.failed) (call : rt'.call = rt.call)
    (driver : rt'.driver = .unstarted ↔ rt.driver = .unstarted) : rt'.Orderly where
  -- Each part reads the flag, the call and whether the driver was started.
  unset := fun unset => by
    rw [driver, failed, call]
    exact orderly.unset (state ▸ unset)
  starts := fun starts => by
    rw [driver, failed, state]
    exact orderly.starts (call ▸ starts)
  failed := fun bad => driver.mpr (orderly.failed (failed ▸ bad))
  started := fun set good ending => by
    rw [ne_eq, driver]
    exact orderly.started (state ▸ set) (failed ▸ good) (call ▸ ending)

/-- After the flag was swapped, the call can go on to where nothing is started any more. -/
theorem Orderly.ended (orderly : rt.Orderly) {call : RunCall} {sender : Bool}
    (before : rt.call.starts = false) (after : call.starts = false) (set : rt.state = true) :
    ({ rt with call := call, sender := sender } : Runtime).Orderly where
  unset := fun unset => by simp [set] at unset
  starts := fun starts => by simp [after] at starts
  failed := orderly.failed
  started := fun _ good _ => orderly.started set good before

/-- Until the driver is started, the call goes on without it. -/
theorem Orderly.goesOn (orderly : rt.Orderly) {call : RunCall} (before : rt.call.starts = true)
    (after : call.starts = true) : ({ rt with call := call } : Runtime).Orderly := by
  -- While the call starts the threads there is no driver, wherever in the start it is.
  obtain ⟨set, driver, good⟩ := orderly.starts before
  exact ⟨fun unset => by simp [set] at unset, fun _ => ⟨set, driver, good⟩, fun _ => driver,
    fun _ _ ending => by simp [after] at ending⟩

/-- A call that panics while the threads are started leaves no driver, and that is noted. -/
theorem Orderly.fails (orderly : rt.Orderly) (before : rt.call.starts = true) :
    ({ rt with call := .idle, failed := true } : Runtime).Orderly := by
  obtain ⟨set, driver, -⟩ := orderly.starts before
  exact ⟨fun unset => by simp [set] at unset, by simp [RunCall.starts], fun _ => driver, by simp⟩

/-- Every step keeps the order. -/
theorem Effect.orderly (effect : rt.Effect r shared step shared' rt') (orderly : rt.Orderly) :
    rt'.Orderly := by
  -- Past the swap the flag is set, and it is never taken back.
  have set : ∀ {call}, rt.call = call → call ≠ .idle → (∀ blocking, call ≠ .swapping blocking) →
      rt.state = true := by
    intro call before busy swapped
    by_contra unset
    rcases (orderly.unset (by simpa using unset)).2.2 with idle | ⟨blocking, swapping⟩
    · exact busy (before ▸ idle)
    · exact swapped blocking (before ▸ swapping)
  cases effect with
  | runCalled unused =>
    refine ⟨fun unset => ?_, by simp [RunCall.starts], orderly.failed, fun set good _ => ?_⟩
    · obtain ⟨driver, good, -⟩ := orderly.unset unset
      exact ⟨driver, good, .inr ⟨_, rfl⟩⟩
    · exact orderly.started set good (by simp [unused.1, RunCall.starts])
  | swapped before =>
    -- The call starts a driver only where the flag was not set.
    cases state : rt.state with
    | true =>
      refine ⟨by simp, by simp [RunCall.starts], orderly.failed, fun _ good _ => ?_⟩
      exact orderly.started state good (by simp [before, RunCall.starts])
    | false =>
      obtain ⟨driver, good, -⟩ := orderly.unset state
      exact ⟨by simp, fun _ => ⟨rfl, driver, good⟩, fun _ => driver, by simp [RunCall.starts]⟩
  | created before => exact orderly.goesOn (by simp [before, RunCall.starts]) rfl
  | stored before => exact orderly.goesOn (by simp [before, RunCall.starts]) rfl
  | started before =>
    obtain ⟨set, -, good⟩ := orderly.starts (by simp [before, RunCall.starts])
    exact ⟨fun unset => by simp [set] at unset, by simp [RunCall.starts],
      fun bad => by simp [good] at bad, by simp⟩
  | failed before =>
    refine orderly.fails ?_
    rcases before with ⟨before, -⟩ | before <;> simp [before, RunCall.starts]
  | abandoned before => exact orderly.fails (by simp [before, RunCall.starts])
  | @returned blocking before =>
    refine orderly.ended (by simp [before, RunCall.starts]) ?_ (set before (by simp) (by simp))
    cases blocking <;> rfl
  | unblocked before =>
    exact orderly.ended (by simp [before, RunCall.starts]) rfl (set before (by simp) (by simp))
  | noticeSent _ sent =>
    have rest := send_rest sent
    exact orderly.congr (by rw [rest]; rfl) (by rw [rest]; rfl) (by rw [rest]; rfl)
      (by rw [rest]; rfl)
  | notified _ sent =>
    have rest := send_rest sent
    exact orderly.congr (by rw [rest]) (by rw [rest]) (by rw [rest]) (by rw [rest])
  | noticed before taken =>
    have rest := tryRecv_rest taken
    exact orderly.congr (by rw [rest]) (by rw [rest]) (by rw [rest]) (by simp [before])
  | driverLoaded before => exact orderly.congr rfl rfl rfl (by simp [before])
  | driverPanicked before => exact orderly.congr rfl rfl rfl (by simp [before])
  | driverPolled before => exact orderly.congr rfl rfl rfl (by simp [before])
  | unnoticed before => exact orderly.congr rfl rfl rfl (by simp [before])
  | exitLoaded before => exact orderly.congr rfl rfl rfl (by simp [before])
  | exitFlagged before => exact orderly.congr rfl rfl rfl (by simp [before])
  | exitCleared before => exact orderly.congr rfl rfl rfl (by simp [before])
  | _ => exact orderly.congr rfl rfl rfl Iff.rfl

/-- The notices of an own channel are the waiting ones and the one that the driver has taken. -/
def Counted (rt : Runtime) : Prop :=
  ∀ notices, rt.notifier = .own notices → notices.connected = true ∧
    rt.sent = notices.queue.length + rt.driver.received ∧
    ∀ room, notices.capacity = some room → notices.queue.length ≤ room

/-- Nothing is counted where the user has supplied the channel. -/
theorem supplied_counted (supplied : rt.notifier = .supplied) : rt.Counted := by
  intro notices own
  cases supplied.symm.trans own

/-- A new runtime has sent and taken nothing. -/
theorem build_counted (execs : Nat) (capacity : Option Nat) :
    (build execs (.own ⟨[], capacity, true⟩)).Counted := by
  -- The channel of a new runtime is empty.
  intro notices own
  obtain rfl := Notifier.own.inj own
  exact ⟨rfl, rfl, fun room _ => Nat.zero_le room⟩

/-- Only the channel, the number of notices sent, and the driver matter for the count. -/
theorem Counted.congr (counted : rt.Counted) (notifier : rt'.notifier = rt.notifier)
    (sent : rt'.sent = rt.sent) (received : rt'.driver.received = rt.driver.received) :
    rt'.Counted := by
  -- The three of them are all that the count speaks of.
  intro notices own
  rw [sent, received]
  exact counted notices (notifier ▸ own)

/-- A notice that goes through is counted. -/
theorem Counted.send (counted : rt.Counted) (sent : rt.send = some rt') : rt'.Counted := by
  -- A full channel lets nothing through, so that the queue stays within the capacity.
  intro notices own
  unfold Runtime.send at sent
  split at sent
  · rename_i supplied
    obtain rfl := Option.some.inj sent
    simp [supplied] at own
  · rename_i before there
    obtain ⟨connected, count, bounded⟩ := counted before there
    split at sent
    · rename_i after went
      obtain ⟨-, room, rfl⟩ := Channel.send_eq_sent_iff.mp went
      obtain rfl := Option.some.inj sent
      obtain rfl := Notifier.own.inj own
      refine ⟨connected, ?_, fun room' capacity => ?_⟩
      · simp only [List.length_append, List.length_singleton]
        omega
      · have open_ : ¬ room' ≤ before.queue.length := by
          simpa [Channel.isFull, show before.capacity = some room' from capacity] using room
        simp only [List.length_append, List.length_singleton]
        omega
    · simp at sent
    · obtain rfl := Option.some.inj sent
      exact counted notices own

/-- The notice that the driver takes is counted as well. -/
theorem Counted.tryRecv {notice : Bool} (counted : rt.Counted)
    (receiving : rt.driver = .receiving) (taken : rt.tryRecv notice = some rt') :
    ({ rt' with driver := .exitLoading } : Runtime).Counted := by
  -- The notice leaves the queue and the driver has taken it, so that the sum stays.
  intro notices own
  unfold Runtime.tryRecv at taken
  split at taken
  · rename_i supplied
    obtain ⟨-, same⟩ := Option.ite_none_right_eq_some.mp taken
    obtain rfl := Option.some.inj same
    simp [supplied] at own
  · rename_i before there
    obtain ⟨⟨message, after⟩, found, rfl⟩ := Option.map_eq_some_iff.mp taken
    obtain rfl := Notifier.own.inj own
    obtain ⟨connected, count, bounded⟩ := counted before there
    obtain ⟨front, same⟩ := Channel.tryRecv_eq_some_iff.mp found
    rw [receiving, front] at count
    refine ⟨?_, ?_, fun room capacity => ?_⟩
    · rw [same]
      exact connected
    · simp only [Driver.received, List.length_cons] at count ⊢
      omega
    · rw [same] at capacity
      have enough := bounded room capacity
      simp only [front, List.length_cons] at enough
      omega

/-- Every step keeps the count. -/
theorem Effect.counted (effect : rt.Effect r shared step shared' rt') (orderly : rt.Orderly)
    (counted : rt.Counted) : rt'.Counted := by
  -- The count changes with a send only; taking a notice moves it to the driver.
  cases effect with
  | replaced => exact supplied_counted rfl
  | noticeSent _ sent => exact (counted.send sent).congr rfl rfl rfl
  | notified _ sent => exact counted.send sent
  | noticed before taken => exact counted.tryRecv before taken
  | started before =>
    -- There was no driver before, so nothing had been taken.
    obtain ⟨-, driver, -⟩ := orderly.starts (by simp [before, RunCall.starts])
    exact counted.congr rfl rfl (by rw [driver]; rfl)
  | driverLoaded before => exact counted.congr rfl rfl (by rw [before]; rfl)
  | driverPanicked before => exact counted.congr rfl rfl (by rw [before]; rfl)
  | driverPolled before => exact counted.congr rfl rfl (by rw [before]; rfl)
  | unnoticed before => exact counted.congr rfl rfl (by rw [before]; rfl)
  | exitLoaded before => exact counted.congr rfl rfl (by rw [before]; rfl)
  | exitFlagged before => exact counted.congr rfl rfl (by rw [before]; rfl)
  | exitCleared before => exact counted.congr rfl rfl (by rw [before]; rfl)
  | _ => exact counted.congr rfl rfl rfl

/-- A send on an own channel waits exactly while the channel is full. -/
theorem Counted.send_eq_none_iff (counted : rt.Counted) {notices : Channel Unit} {room : Nat}
    (own : rt.notifier = .own notices) (capacity : notices.capacity = some room) :
    rt.send = none ↔ room ≤ notices.queue.length := by
  -- The runtime itself keeps a receiver, so the send is not refused.
  have connected := (counted notices own).1
  have full : notices.isFull = true ↔ room ≤ notices.queue.length := by
    simp [Channel.isFull, capacity]
  have waits : rt.send = none ↔ notices.send () = .full := by
    unfold Runtime.send
    rw [own]
    simp only
    cases notices.send () <;> simp
  rw [waits, Channel.send_eq_full_iff, full]
  exact and_iff_right connected

/-- A waiting call is stuck exactly if the notices before it are more than the driver takes. -/
theorem Counted.stuck_iff (counted : rt.Counted) {notices : Channel Unit} {room : Nat}
    (own : rt.notifier = .own notices) (capacity : notices.capacity = some room) :
    rt.Stuck ↔
      (∃ call, rt.shutdowns call = .sending) ∧ rt.driver.takes + room ≤ rt.sent := by
  -- What is in the channel is what was sent less what the driver has received.
  obtain ⟨-, count, bounded⟩ := counted notices own
  have enough := bounded room capacity
  rw [Stuck, counted.send_eq_none_iff own capacity]
  refine and_congr_right fun _ => ?_
  -- A driver that listens has not taken a notice yet, and one that does not takes no more.
  cases driver : rt.driver <;>
    simp only [driver, Driver.listens, Driver.received, Driver.takes] at count ⊢ <;>
    first
      | (simp only [Bool.true_eq_false, and_false, false_iff]; omega)
      | (simp only [and_true]; omega)

end Runtime

/-- In every reachable state the runtimes are in order, and their notices are counted. -/
theorem Process.orderly_of_run {acts : List ProcessAction} {last : Process}
    (run : Run (Steps Process.next) Process.new acts last) :
    ∀ r rt, last.runtimes r = some rt → rt.Orderly ∧ rt.Counted := by
  -- Both are invariants of one runtime by itself; other runtimes share a channel at most.
  refine Process.runtimes_invariant run (fun execs capacity => ?_) (fun execs => ?_) ?_ ?_
  · exact ⟨Runtime.build_orderly _ _, Runtime.build_counted _ _⟩
  · exact ⟨Runtime.build_orderly _ _, Runtime.supplied_counted rfl⟩
  · exact fun rt before =>
      ⟨before.1.congr rfl rfl rfl Iff.rfl, Runtime.supplied_counted rfl⟩
  · exact fun r _ rt _ _ _ before effect =>
      ⟨effect.orderly before.1, effect.counted before.1 before.2⟩

section Shutdown

variable {acts : List ProcessAction} {last : Process} {r : RuntimeId} {rt : Runtime}
  {notices : Channel Unit} {room : Nat}

/--
A call of `shutdown` waits in vain exactly if it is one too many.

In every reachable state of a process, a runtime that has the channel of its builder has no stuck
call of `shutdown` exactly if, whenever a call waits to send, fewer notices have been sent than the
channel holds and the driver takes: one if the driver has been started and has not panicked, and
otherwise none.
-/
theorem shutdown_not_stuck_iff (run : Run (Steps Process.next) Process.new acts last)
    (built : last.runtimes r = some rt) (own : rt.notifier = .own notices)
    (capacity : notices.capacity = some room) :
    ¬ rt.Stuck ↔
      ∀ call, rt.shutdowns call = .sending → rt.sent < rt.driver.takes + room := by
  -- The count and the capacity turn a full channel into a number of notices.
  rw [(Process.orderly_of_run run r rt built).2.stuck_iff own capacity]
  simp only [not_and, not_le, forall_exists_index]

/-- Call `shutdown` on a runtime that was never run, and then drop it. -/
def shutdownThenDrop : List ProcessAction :=
  [.build 1 (some 1), .step 0 .shutdown] ++ List.replicate 4 (.step 0 (.stepShutdown 0)) ++
    [.step 0 .drop]

/-- The drop waits for a driver that was never started. -/
theorem drop_waits_for_ever :
    ∃ s rt, Run (Steps Process.next) Process.new shutdownThenDrop s ∧ s.runtimes 0 = some rt ∧
      rt.notifier = .own ⟨[()], some 1, true⟩ ∧ rt.Stuck := by
  -- The first notice fills the channel, and nobody takes it.
  have replayed : (replay Process.next Process.new shutdownThenDrop).map (fun s =>
      (s.runtimes 0).any fun rt => rt.notifier == .own ⟨[()], some 1, true⟩ &&
        rt.shutdowns 1 == .sending && rt.driver == .unstarted) = some true := by
    decide
  obtain ⟨s, run, stopped⟩ := Run.of_replay_test replayed
  obtain ⟨rt, there, waits⟩ := (Option.any_eq_true _ _).mp stopped
  simp only [Bool.and_eq_true, beq_iff_eq] at waits
  obtain ⟨⟨own, sending⟩, driver⟩ := waits
  refine ⟨s, rt, run, there, own, ⟨1, sending⟩, ?_, by rw [driver]; rfl⟩
  simp [Runtime.send, own, Channel.send, Channel.isFull]

/-- A call of `shutdown` after a call of `run` does not wait in vain. -/
theorem shutdown_after_run :
    ∃ s rt, Run (Steps Process.next) Process.new
        ([.build 1 (some 1)] ++ callOfRun 0 ++ [.step 0 .shutdown]) s ∧
      s.runtimes 0 = some rt ∧ rt.shutdowns 0 = .sending ∧ ¬ rt.Stuck := by
  -- The run is replayed, and the notice that is waiting to be sent finds room.
  have replayed : (replay Process.next Process.new
      ([.build 1 (some 1)] ++ callOfRun 0 ++ [.step 0 .shutdown])).map (fun s =>
      (s.runtimes 0).any fun rt => rt.notifier == .own ⟨[], some 1, true⟩ && rt.sent == 0 &&
        rt.shutdowns 0 == .sending) = some true := by
    decide
  obtain ⟨s, run, stopped⟩ := Run.of_replay_test replayed
  obtain ⟨rt, there, waits⟩ := (Option.any_eq_true _ _).mp stopped
  simp only [Bool.and_eq_true, beq_iff_eq] at waits
  obtain ⟨⟨own, sent⟩, sending⟩ := waits
  refine ⟨s, rt, run, there, sending, (shutdown_not_stuck_iff run there own rfl).mpr ?_⟩
  intro _ _
  omega

end Shutdown

end Imputio
