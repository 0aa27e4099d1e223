/-
Module: LobbySvr.Proofs.ServiceUpdates
Layer: Proofs
Purpose: The updates of a service in every run.  However often and whenever the timer is armed from outside,
  there is one wait at most and the updates never die out; and the times that `onUpdate` is told never add
  up to more than has passed since the timer was first armed, as long as the clock does not go back.
Imports: LobbySvr.Foundation.Traces, LobbySvr.Net.NetServiceImpl
Trusted boundary: none
Main exports: ServiceStep, service_step_cases, Ticking, Timekeeping, service_updates
Open obligations: none
-/
import Mathlib
import LobbySvr.Foundation.Traces
import LobbySvr.Net.NetServiceImpl

namespace LobbySvr.Proofs

open LobbySvr.Foundation
open LobbySvr.Net

/-- The trace of a service: what happened, and the updates. -/
abbrev ServiceTrace := List (ServiceEvent × Option UInt64)

/-- The updates, each by its `elapse`. -/
def updates (trace : ServiceTrace) : List UInt64 := trace.filterMap Prod.snd

/-- The time that the updates were told, in milliseconds. -/
def told (trace : ServiceTrace) : Nat := ((updates trace).map UInt64.toNat).sum

/-- When the timer was armed from outside. -/
def readyTimes (events : List ServiceEvent) : List Int :=
  events.filterMap fun event =>
    match event with
    | .expireTimerReady now _ => some now
    | _ => none

/-- Whether the timer expires. -/
def isExpiry : ServiceEvent → Bool
  | .expires _ => true
  | _ => false

/-- The readings of the clock in a step. -/
def readingsOf : ServiceEvent → List Int
  | .expireTimerReady now fromNow => [now, fromNow]
  | .expires now => [now]
  | .updateHandler _ now fromNow => [now, fromNow]

/-- The clock does not go back, and shows a time that the type of a time point holds. -/
structure ClockForward (events : List ServiceEvent) : Prop where
  ordered : (events.flatMap readingsOf).Pairwise (· ≤ ·)
  held : ∀ reading ∈ events.flatMap readingsOf, 0 ≤ reading ∧ reading < 2 ^ 63

/-- The completions that lead to an update. -/
def duesOf (service : NetServiceImpl) : Nat := service.strand.count noError

/-- What a step does. -/
inductive ServiceStep (service : NetServiceImpl) : ServiceEvent → NetServiceImpl → Option UInt64 → Prop where
  /-- A service without updates. -/
  | idle {now fromNow : Int} (never : service.updateTimeMs = 0) :
      ServiceStep service (.expireTimerReady now fromNow) service none
  | arms {now fromNow : Int} (updates : service.updateTimeMs ≠ 0) :
      ServiceStep service (.expireTimerReady now fromNow)
        ({ service with prevTime := now }.rearm fromNow) none
  | expires {now : Int} (waiting : 0 < service.waits) (due : service.expiry ≤ now / 1000) :
      ServiceStep service (.expires now)
        { service with
          waits := 0
          strand := service.strand ++ List.replicate service.waits noError } none
  | updated {index : Nat} {now fromNow : Int} {others : List ErrorCode}
      (picked : pick index service.strand = some (noError, others))
      (opened : service.receiverEventClosed = false) :
      ServiceStep service (.updateHandler index now fromNow)
        ({ service with strand := others, prevTime := now }.rearm fromNow) (some (service.elapse now))
  | drops {index : Nat} {now fromNow : Int} {ec : ErrorCode} {others : List ErrorCode}
      (picked : pick index service.strand = some (ec, others))
      (refused : ¬ (ec = noError ∧ service.receiverEventClosed = false)) :
      ServiceStep service (.updateHandler index now fromNow) { service with strand := others } none

theorem service_step_cases {service later : NetServiceImpl} {event : ServiceEvent} {update : Option UInt64}
    (stepped : service.step event = .ok (later, update)) : ServiceStep service event later update := by
  cases event with
  | expireTimerReady now fromNow =>
      cases stepped
      unfold NetServiceImpl.expireTimerReady
      split
      · rename_i never
        exact .idle never
      · rename_i updates
        exact .arms updates
  | expires now =>
      rw [NetServiceImpl.step] at stepped
      split at stepped
      · rename_i possible
        cases stepped
        exact .expires possible.1 possible.2
      · cases stepped
  | updateHandler index now fromNow =>
      rw [NetServiceImpl.step] at stepped
      split at stepped
      · cases stepped
      · rename_i ec others picked
        unfold NetServiceImpl.updateHandler at stepped
        split at stepped
        · rename_i taken
          obtain ⟨rfl, opened⟩ := taken
          cases stepped
          exact .updated picked opened
        · rename_i refused
          cases stepped
          exact .drops picked refused

theorem updates_snoc (trace : ServiceTrace) (event : ServiceEvent) (update : Option UInt64) :
    updates (trace ++ [(event, update)]) = updates trace ++ update.toList := by
  cases update with
  | none => simp [updates]
  | some elapse => simp [updates]

theorem readyTimes_snoc (trace : ServiceTrace) (event : ServiceEvent) (update : Option UInt64) :
    readyTimes ((trace ++ [(event, update)]).map Prod.fst) =
      readyTimes (trace.map Prod.fst) ++ readyTimes [event] := by
  simp [readyTimes, List.filterMap_append]

/-! ### One wait, and no end -/

/-- The aborted completions that arming the timer leaves behind lead to no update. -/
theorem duesOf_rearm (service : NetServiceImpl) (fromNow : Int) :
    duesOf (service.rearm fromNow) = duesOf service := by
  have aborted : operationAborted ≠ noError := by decide
  simp [duesOf, NetServiceImpl.rearm, List.count_append, List.count_replicate, aborted]

theorem duesOf_expires (service : NetServiceImpl) :
    duesOf { service with
      waits := 0
      strand := service.strand ++ List.replicate service.waits noError } =
        duesOf service + service.waits := by
  simp [duesOf, List.count_append]

/-- Taking a completion out of the strand. -/
theorem duesOf_picked {service : NetServiceImpl} {index : Nat} {ec : ErrorCode} {others : List ErrorCode}
    (picked : pick index service.strand = some (ec, others)) :
    duesOf service = others.count noError + if ec = noError then 1 else 0 := by
  have counted := pick_countP picked (· == noError)
  simp only [beq_iff_eq] at counted
  exact counted

/-- What every run keeps. -/
structure Ticking (updateTimeMs : Nat) (trace : ServiceTrace) (service : NetServiceImpl) : Prop where
  interval : service.updateTimeMs = updateTimeMs
  opened : service.receiverEventClosed = false
  single : service.waits ≤ 1
  never : updateTimeMs = 0 → service.waits = 0 ∧ service.strand = [] ∧ updates trace = []
  alive : updateTimeMs ≠ 0 → readyTimes (trace.map Prod.fst) ≠ [] → 0 < service.waits + duesOf service
  chains : service.waits + duesOf service ≤ (readyTimes (trace.map Prod.fst)).length
  accounted : (updates trace).length + duesOf service = (trace.map Prod.fst).countP isExpiry

theorem created_ticking (updateTimeMs : Nat) (since : Int) :
    Ticking updateTimeMs [] (.created updateTimeMs since) where
  interval := rfl
  opened := rfl
  single := Nat.zero_le 1
  never _ := ⟨rfl, rfl, rfl⟩
  alive _ armed := absurd rfl armed
  chains := Nat.le_refl 0
  accounted := rfl

theorem expiries_snoc (trace : ServiceTrace) (event : ServiceEvent) (update : Option UInt64) :
    ((trace ++ [(event, update)]).map Prod.fst).countP isExpiry =
      (trace.map Prod.fst).countP isExpiry + [event].countP isExpiry := by
  simp [List.countP_append]

section

variable {updateTimeMs : Nat} {trace : ServiceTrace} {service : NetServiceImpl}

theorem Ticking.arms (ticking : Ticking updateTimeMs trace service) (some : service.updateTimeMs ≠ 0)
    (now fromNow : Int) :
    Ticking updateTimeMs (trace ++ [(.expireTimerReady now fromNow, none)])
      ({ service with prevTime := now }.rearm fromNow) := by
  refine ⟨ticking.interval, ticking.opened, Nat.le_refl 1,
    fun none => absurd (ticking.interval.trans none) some, ?_, ?_, ?_⟩
  · intro _ _
    exact Nat.lt_of_lt_of_le Nat.zero_lt_one (Nat.le_add_right 1 _)
  · have chains := ticking.chains
    rw [duesOf_rearm, readyTimes_snoc, List.length_append]
    change 1 + duesOf service ≤ _ + 1
    omega
  · rw [duesOf_rearm, updates_snoc, expiries_snoc]
    change (updates trace ++ []).length + duesOf service = _ + 0
    rw [List.append_nil]
    exact ticking.accounted

/-- The wait that ends is the only one, and its completion is due. -/
theorem Ticking.expires (ticking : Ticking updateTimeMs trace service) (waiting : 0 < service.waits)
    (now : Int) :
    Ticking updateTimeMs (trace ++ [(.expires now, none)])
      { service with
        waits := 0
        strand := service.strand ++ List.replicate service.waits noError } := by
  obtain ⟨interval, opened, single, never, -, chains, accounted⟩ := ticking
  have one : service.waits = 1 := by omega
  have dues := duesOf_expires service
  refine ⟨interval, opened, Nat.zero_le 1, ?_, ?_, ?_, ?_⟩
  · intro none
    have := (never none).1
    omega
  · intro _ _
    rw [dues]
    omega
  · rw [dues, readyTimes_snoc, List.length_append]
    simp only
    omega
  · rw [dues, updates_snoc, expiries_snoc]
    simp only [Option.toList_none, List.append_nil, List.countP_singleton, isExpiry, if_true]
    omega

/-- An update uses up a due completion and sets off the next wait. -/
theorem Ticking.updated (ticking : Ticking updateTimeMs trace service) {index : Nat} {others : List ErrorCode}
    (picked : pick index service.strand = some (noError, others)) (now fromNow : Int) :
    Ticking updateTimeMs (trace ++ [(.updateHandler index now fromNow, some (service.elapse now))])
      ({ service with strand := others, prevTime := now }.rearm fromNow) := by
  obtain ⟨interval, opened, single, never, -, chains, accounted⟩ := ticking
  have dues := duesOf_picked picked
  rw [if_pos rfl] at dues
  refine ⟨interval, opened, Nat.le_refl 1, ?_, ?_, ?_, ?_⟩
  · intro none
    rw [duesOf, (never none).2.1] at dues
    simp at dues
  · intro _ _
    exact Nat.lt_of_lt_of_le Nat.zero_lt_one (Nat.le_add_right 1 _)
  · rw [duesOf_rearm, readyTimes_snoc, List.length_append]
    change 1 + others.count noError ≤ _ + 0
    omega
  · rw [duesOf_rearm, updates_snoc, expiries_snoc]
    simp only [Option.toList_some, List.length_append, List.length_singleton, List.countP_singleton,
      isExpiry, Bool.false_eq_true, if_false]
    change _ + 1 + others.count noError = _
    omega

/-- The service is open, so that a completion without an update was aborted. -/
theorem Ticking.drops (ticking : Ticking updateTimeMs trace service) {index : Nat} {ec : ErrorCode}
    {others : List ErrorCode} (picked : pick index service.strand = some (ec, others))
    (refused : ¬ (ec = noError ∧ service.receiverEventClosed = false)) (now fromNow : Int) :
    Ticking updateTimeMs (trace ++ [(.updateHandler index now fromNow, none)])
      { service with strand := others } := by
  obtain ⟨interval, opened, single, never, alive, chains, accounted⟩ := ticking
  have dues := duesOf_picked picked
  rw [if_neg fun none => refused ⟨none, opened⟩] at dues
  have same : duesOf { service with strand := others } = duesOf service := dues.symm
  refine ⟨interval, opened, single, ?_, ?_, ?_, ?_⟩
  · intro none
    rw [(never none).2.1] at picked
    cases index with
    | zero => cases picked
    | succ index => cases picked
  · intro some armed
    rw [readyTimes_snoc] at armed
    rw [same]
    exact alive some fun none => armed (by rw [none]; rfl)
  · rw [same, readyTimes_snoc, List.length_append]
    exact Nat.le_add_right_of_le chains
  · rw [same, updates_snoc, expiries_snoc]
    simpa [isExpiry] using accounted

/-- A step keeps it. -/
theorem Ticking.step {later : NetServiceImpl} {event : ServiceEvent} {update : Option UInt64}
    (ticking : Ticking updateTimeMs trace service) (taken : ServiceStep service event later update) :
    Ticking updateTimeMs (trace ++ [(event, update)]) later := by
  cases taken with
  | @idle now fromNow none =>
      obtain ⟨interval, opened, single, never, -, -, accounted⟩ := ticking
      have ⟨noWait, empty, silent⟩ := never (interval.symm.trans none)
      refine ⟨interval, opened, single, fun _ => ⟨noWait, empty, ?_⟩,
        fun some => absurd (interval.symm.trans none) some, ?_, ?_⟩
      · rw [updates_snoc, silent]
        rfl
      · rw [noWait, duesOf, empty]
        exact Nat.zero_le _
      · rw [updates_snoc, expiries_snoc]
        simpa [isExpiry] using accounted
  | arms some => exact ticking.arms some _ _
  | expires waiting due => exact ticking.expires waiting _
  | updated picked opened => exact ticking.updated picked _ _
  | drops picked refused => exact ticking.drops picked refused _ _

end

/-! ### The time that updates are told -/

/-- With a clock that does not go back, `elapse` is the time since the last update, rounded down. -/
theorem elapse_toNat {service : NetServiceImpl} {now : Int} (forward : service.prevTime ≤ now)
    (held : now - service.prevTime < 2 ^ 63) :
    ((service.elapse now).toNat : Int) = (now - service.prevTime) / 1000000 := by
  have apart : 0 ≤ now - service.prevTime := by omega
  rw [NetServiceImpl.elapse, Int.tdiv_eq_ediv_of_nonneg apart]
  generalize now - service.prevTime = span at apart held
  have small : span / 1000000 % 2 ^ 64 = span / 1000000 := Int.emod_eq_of_lt (by omega) (by omega)
  rw [UInt64.ofInt, small, UInt64.toNat_ofNat']
  omega

theorem ClockForward.init {earlier : List ServiceEvent} {event : ServiceEvent}
    (clock : ClockForward (earlier ++ [event])) : ClockForward earlier := by
  obtain ⟨ordered, held⟩ := clock
  rw [List.flatMap_append] at ordered held
  exact ⟨(List.pairwise_append.mp ordered).1, fun reading member => held reading (List.mem_append_left _ member)⟩

/-- A reading comes behind all earlier ones. -/
theorem ClockForward.behind {earlier : List ServiceEvent} {event : ServiceEvent}
    (clock : ClockForward (earlier ++ [event])) {reading now : Int} (early : reading ∈ earlier.flatMap readingsOf)
    (late : now ∈ readingsOf event) : reading ≤ now ∧ now - reading < 2 ^ 63 := by
  obtain ⟨ordered, held⟩ := clock
  rw [List.flatMap_append] at ordered held
  have late : now ∈ [event].flatMap readingsOf := by
    rw [List.flatMap_singleton]
    exact late
  have forward := (List.pairwise_append.mp ordered).2.2 reading early now late
  have first := held reading (List.mem_append_left _ early)
  have second := held now (List.mem_append_right _ late)
  exact ⟨forward, by omega⟩

/-- The readings of one step are in order. -/
theorem ClockForward.within {earlier : List ServiceEvent} {event : ServiceEvent}
    (clock : ClockForward (earlier ++ [event])) : (readingsOf event).Pairwise (· ≤ ·) := by
  have ordered := clock.ordered
  rw [List.flatMap_append, List.flatMap_singleton] at ordered
  exact (List.pairwise_append.mp ordered).2.1

/-- What every run keeps of the time, once the timer has been armed at `start`.  More is known as long as it
    has not been armed from outside again. -/
structure Timekeeping (updateTimeMs : Nat) (start : Int) (trace : ServiceTrace) (service : NetServiceImpl) :
    Prop where
  read : service.prevTime ∈ (trace.map Prod.fst).flatMap readingsOf
  notMore : 1000000 * (told trace : Int) ≤ service.prevTime - start
  notLess : (readyTimes (trace.map Prod.fst)).length = 1 →
    service.prevTime - start ≤ 1000000 * (told trace : Int) + 999999 * ((updates trace).length : Int)
  paced : (readyTimes (trace.map Prod.fst)).length = 1 →
    ∀ elapse ∈ updates trace, updateTimeMs ≤ elapse.toNat + 1
  waiting : (readyTimes (trace.map Prod.fst)).length = 1 → 0 < service.waits →
    service.prevTime + 1000000 * updateTimeMs ≤ 1000 * service.expiry + 999
  due : (readyTimes (trace.map Prod.fst)).length = 1 → 0 < duesOf service →
    ∃ reading ∈ (trace.map Prod.fst).flatMap readingsOf,
      service.prevTime + 1000000 * updateTimeMs ≤ reading + 999

theorem told_snoc_none (trace : ServiceTrace) (event : ServiceEvent) :
    told (trace ++ [(event, none)]) = told trace := by
  rw [told, updates_snoc, Option.toList_none, List.append_nil, told]

theorem told_snoc_some (trace : ServiceTrace) (event : ServiceEvent) (elapse : UInt64) :
    told (trace ++ [(event, some elapse)]) = told trace + elapse.toNat := by
  simp [told, updates_snoc]

/-- Arming the timer sets its time off from the reading it is armed with. -/
theorem rearm_waiting (service : NetServiceImpl) {now fromNow : Int} (forward : now ≤ fromNow) :
    now + 1000000 * (service.updateTimeMs : Int) ≤ 1000 * (service.rearm fromNow).expiry + 999 := by
  change _ ≤ 1000 * (fromNow / 1000 + 1000 * (service.updateTimeMs : Int)) + 999
  omega

section

variable {updateTimeMs : Nat} {start : Int} {trace : ServiceTrace} {service later : NetServiceImpl}
  {event : ServiceEvent} {update : Option UInt64}

/-- The step that arms the timer for the first time. -/
theorem first_arms (interval : service.updateTimeMs = updateTimeMs) {now fromNow : Int}
    (forward : now ≤ fromNow) (noDue : duesOf service = 0) (silent : updates trace = []) :
    Timekeeping updateTimeMs now (trace ++ [(.expireTimerReady now fromNow, none)])
      ({ service with prevTime := now }.rearm fromNow) := by
  have nothing : told trace = 0 := by rw [told, silent]; rfl
  have still : updates (trace ++ [(.expireTimerReady now fromNow, none)]) = [] := by
    rw [updates_snoc, silent]
    rfl
  refine ⟨?_, ?_, ?_, ?_, ?_, ?_⟩
  · rw [List.map_append, List.flatMap_append]
    exact List.mem_append_right _ (List.mem_cons_self ..)
  · rw [told_snoc_none, nothing]
    change 1000000 * 0 ≤ now - now
    omega
  · intro _
    rw [told_snoc_none, nothing, still]
    change now - now ≤ 1000000 * 0 + 999999 * 0
    omega
  · intro _ elapse member
    rw [still] at member
    cases member
  · intro _ _
    rw [← interval]
    exact rearm_waiting { service with prevTime := now } forward
  · intro _ due
    rw [duesOf_rearm] at due
    change 0 < duesOf service at due
    omega

theorem readings_snoc (trace : ServiceTrace) (event : ServiceEvent) (update : Option UInt64) :
    ((trace ++ [(event, update)]).map Prod.fst).flatMap readingsOf =
      (trace.map Prod.fst).flatMap readingsOf ++ readingsOf event := by
  rw [List.map_append, List.flatMap_append, List.map_singleton, List.flatMap_singleton]

/-- A step that neither arms from outside nor updates keeps what is known of the updates.  What is left to
    show is about the wait and the completions behind it. -/
theorem Timekeeping.quiet (kept : Timekeeping updateTimeMs start trace service)
    (same : later.prevTime = service.prevTime) (unarmed : readyTimes [event] = [])
    (waiting : (readyTimes (trace.map Prod.fst)).length = 1 → 0 < later.waits →
      service.prevTime + 1000000 * updateTimeMs ≤ 1000 * later.expiry + 999)
    (due : (readyTimes (trace.map Prod.fst)).length = 1 → 0 < duesOf later →
      ∃ reading ∈ (trace.map Prod.fst).flatMap readingsOf ++ readingsOf event,
        service.prevTime + 1000000 * updateTimeMs ≤ reading + 999) :
    Timekeeping updateTimeMs start (trace ++ [(event, none)]) later := by
  have readies : readyTimes ((trace ++ [(event, none)]).map Prod.fst) = readyTimes (trace.map Prod.fst) := by
    rw [readyTimes_snoc, unarmed, List.append_nil]
  have still : updates (trace ++ [(event, none)]) = updates trace := by
    rw [updates_snoc, Option.toList_none, List.append_nil]
  refine ⟨?_, ?_, ?_, ?_, ?_, ?_⟩
  · rw [readings_snoc, same]
    exact List.mem_append_left _ kept.read
  · rw [told_snoc_none, same]
    exact kept.notMore
  · rw [readies, told_snoc_none, still, same]
    exact kept.notLess
  · rw [readies, still]
    exact kept.paced
  · rw [readies, same]
    exact waiting
  · rw [readies, readings_snoc, same]
    exact due

/-- Another arming from outside: the timer has then been armed twice. -/
theorem Timekeeping.arms (kept : Timekeeping updateTimeMs start trace service)
    (armed : readyTimes (trace.map Prod.fst) ≠ []) {now fromNow : Int}
    (clock : ClockForward (trace.map Prod.fst ++ [.expireTimerReady now fromNow])) :
    Timekeeping updateTimeMs start (trace ++ [(.expireTimerReady now fromNow, none)])
      ({ service with prevTime := now }.rearm fromNow) := by
  have twice : (readyTimes ((trace ++ [(ServiceEvent.expireTimerReady now fromNow, none)]).map
      Prod.fst)).length ≠ 1 := by
    have some := List.length_pos_iff.mpr armed
    rw [readyTimes_snoc, List.length_append]
    change _ + 1 ≠ 1
    omega
  have forward := (clock.behind kept.read (List.mem_cons_self ..)).1
  have notMore := kept.notMore
  refine ⟨?_, ?_, fun alone => absurd alone twice, fun alone => absurd alone twice,
    fun alone => absurd alone twice, fun alone => absurd alone twice⟩
  · rw [readings_snoc]
    exact List.mem_append_right _ (List.mem_cons_self ..)
  · rw [told_snoc_none]
    change _ ≤ now - start
    omega

/-- An update: it is told the time since the last one, rounded down, and its own wait was long enough. -/
theorem Timekeeping.updated (kept : Timekeeping updateTimeMs start trace service)
    (ticking : Ticking updateTimeMs trace service) {index : Nat} {now fromNow : Int} {others : List ErrorCode}
    (clock : ClockForward (trace.map Prod.fst ++ [.updateHandler index now fromNow]))
    (picked : pick index service.strand = some (noError, others)) :
    Timekeeping updateTimeMs start
      (trace ++ [(.updateHandler index now fromNow, some (service.elapse now))])
      ({ service with strand := others, prevTime := now }.rearm fromNow) := by
  obtain ⟨read, notMore, notLess, paced, -, due⟩ := kept
  obtain ⟨forward, held⟩ := clock.behind read (List.mem_cons_self ..)
  have value := elapse_toNat forward held
  have chains := ticking.chains
  have dues := duesOf_picked picked
  rw [if_pos rfl] at dues
  have readies : readyTimes ((trace ++
      [(ServiceEvent.updateHandler index now fromNow, some (service.elapse now))]).map Prod.fst) =
        readyTimes (trace.map Prod.fst) := by
    rw [readyTimes_snoc]
    exact List.append_nil _
  refine ⟨?_, ?_, ?_, ?_, ?_, ?_⟩
  · rw [readings_snoc]
    exact List.mem_append_right _ (List.mem_cons_self ..)
  · rw [told_snoc_some]
    change _ ≤ now - start
    push_cast
    omega
  · rw [readies]
    intro alone
    have before := notLess alone
    rw [told_snoc_some, updates_snoc, Option.toList_some, List.length_append, List.length_singleton]
    change now - start ≤ _
    push_cast
    omega
  · rw [readies]
    intro alone elapse member
    rw [updates_snoc, Option.toList_some] at member
    rcases List.mem_append.mp member with member | member
    · exact paced alone elapse member
    · rw [List.mem_singleton.mp member]
      obtain ⟨reading, early, passed⟩ := due alone (by omega)
      have behind := (clock.behind early (List.mem_cons_self ..)).1
      omega
  · intro _ _
    have ordered : now ≤ fromNow :=
      (List.pairwise_cons.mp clock.within).1 fromNow (List.mem_singleton_self _)
    rw [← ticking.interval]
    exact rearm_waiting { service with strand := others, prevTime := now } ordered
  · rw [readies]
    intro alone left
    rw [duesOf_rearm] at left
    change 0 < others.count noError at left
    rw [alone] at chains
    omega

/-- A step behind the first arming. -/
theorem Timekeeping.step (kept : Timekeeping updateTimeMs start trace service)
    (ticking : Ticking updateTimeMs trace service) (armed : readyTimes (trace.map Prod.fst) ≠ [])
    (some : updateTimeMs ≠ 0) (clock : ClockForward (trace.map Prod.fst ++ [event]))
    (taken : ServiceStep service event later update) :
    Timekeeping updateTimeMs start (trace ++ [(event, update)]) later := by
  cases taken with
  | idle none => exact absurd (ticking.interval.symm.trans none) some
  | arms => exact kept.arms armed clock
  | @expires now waits expired =>
      refine kept.quiet rfl rfl (fun _ none => by cases none) fun alone _ => ?_
      have before := kept.waiting alone waits
      refine ⟨now, List.mem_append_right _ (List.mem_singleton_self now), ?_⟩
      omega
  | updated picked _ => exact kept.updated ticking clock picked
  | drops picked refused =>
      have dues := duesOf_picked picked
      rw [if_neg fun none => refused ⟨none, ticking.opened⟩] at dues
      refine kept.quiet rfl rfl kept.waiting fun alone left => ?_
      obtain ⟨reading, early, passed⟩ := kept.due alone (by rw [dues]; exact left)
      exact ⟨reading, List.mem_append_left _ early, passed⟩

/-- Before the timer is armed there is no update. -/
theorem ServiceStep.silent (taken : ServiceStep service event later update)
    (ticking : Ticking updateTimeMs trace service) (unarmed : readyTimes (trace.map Prod.fst) = [])
    (silent : updates trace = []) : updates (trace ++ [(event, update)]) = [] := by
  have chains := ticking.chains
  rw [unarmed, List.length_nil] at chains
  rw [updates_snoc, silent]
  cases taken with
  | updated picked _ =>
      have dues := duesOf_picked picked
      rw [if_pos rfl] at dues
      omega
  | _ => rfl

/-- What is kept of the trace and the state of every run. -/
theorem service_keeps {since : Int} {events : List ServiceEvent}
    (ran : runTrace NetServiceImpl.step (.created updateTimeMs since) events = .ok (service, trace)) :
    Ticking updateTimeMs trace service ∧
      (readyTimes (trace.map Prod.fst) = [] → updates trace = []) ∧
      (ClockForward (trace.map Prod.fst) → updateTimeMs ≠ 0 → ∀ start others,
        readyTimes (trace.map Prod.fst) = start :: others → Timekeeping updateTimeMs start trace service) := by
  refine runTrace_invariant (fun trace service => Ticking updateTimeMs trace service ∧
      (readyTimes (trace.map Prod.fst) = [] → updates trace = []) ∧
      (ClockForward (trace.map Prod.fst) → updateTimeMs ≠ 0 → ∀ start others,
        readyTimes (trace.map Prod.fst) = start :: others →
        Timekeeping updateTimeMs start trace service)) ?_ ?_ ran
  · exact ⟨created_ticking updateTimeMs since, fun _ => rfl, fun _ _ _ _ none => by cases none⟩
  · intro earlier service event next update ⟨ticking, silent, keeps⟩ stepped
    have taken := service_step_cases stepped
    have readies := readyTimes_snoc earlier event update
    refine ⟨ticking.step taken, ?_, ?_⟩
    · intro unarmed
      rw [readies] at unarmed
      have before := (List.append_eq_nil_iff.mp unarmed).1
      exact taken.silent ticking before (silent before)
    · intro clock some start others first
      rw [List.map_append, List.map_singleton] at clock
      rw [readies] at first
      cases armed : readyTimes (earlier.map Prod.fst) with
      | cons ready rest =>
          rw [armed, List.cons_append] at first
          obtain ⟨rfl, -⟩ := List.cons.inj first
          have before := keeps clock.init some ready rest armed
          exact before.step ticking (by rw [armed]; exact List.cons_ne_nil ready rest) some clock taken
      | nil =>
          have chains := ticking.chains
          rw [armed, List.length_nil] at chains
          rw [armed, List.nil_append] at first
          cases taken with
          | idle none => exact absurd (ticking.interval.symm.trans none) some
          | @arms now fromNow _ =>
              obtain ⟨rfl, -⟩ := List.cons.inj first
              have within := clock.within
              have ordered : now ≤ fromNow :=
                (List.pairwise_cons.mp within).1 fromNow (List.mem_singleton_self _)
              exact first_arms ticking.interval ordered (by omega) (silent armed)
          | _ => cases first

end

/-- In every run there is one wait at most, and each expiry of it leads to one update or is about to.  A
    service with an update time of zero never updates; any other has, once armed, a wait or a due update in
    every state.  With a clock that does not go back, the updates are told no more time than has passed
    since the first arming; and if there was only that one, they are told all of it but what rounding
    takes, and each at least the update time less a millisecond. -/
theorem service_updates {updateTimeMs : Nat} {since : Int} {events : List ServiceEvent}
    {trace : ServiceTrace} {service : NetServiceImpl}
    (ran : runTrace NetServiceImpl.step (.created updateTimeMs since) events = .ok (service, trace)) :
    service.waits ≤ 1 ∧
    (updates trace).length + service.strand.count noError = events.countP isExpiry ∧
    (updateTimeMs = 0 → updates trace = [] ∧ service.waits = 0 ∧ service.strand = []) ∧
    (updateTimeMs ≠ 0 → readyTimes events ≠ [] → service.waits = 1 ∨ noError ∈ service.strand) ∧
    (updateTimeMs ≠ 0 → ClockForward events → ∀ start others, readyTimes events = start :: others →
      1000000 * (told trace : Int) ≤ service.prevTime - start ∧
      (others = [] →
        service.prevTime - start ≤ 1000000 * (told trace : Int) + 999999 * ((updates trace).length : Int) ∧
          ∀ elapse ∈ updates trace, updateTimeMs ≤ elapse.toNat + 1)) := by
  obtain ⟨ticking, silent, keeps⟩ := service_keeps ran
  rw [runTrace_inputs ran] at silent keeps
  obtain ⟨interval, opened, single, never, alive, chains, accounted⟩ := ticking
  rw [runTrace_inputs ran] at alive chains accounted
  refine ⟨single, accounted, ?_, ?_, ?_⟩
  · intro none
    have ⟨noWait, empty, noUpdate⟩ := never none
    exact ⟨noUpdate, noWait, empty⟩
  · intro some armed
    have waitsOrDue := alive some armed
    by_cases waits : service.waits = 1
    · exact .inl waits
    · exact .inr (List.count_pos_iff.mp (by rw [duesOf] at waitsOrDue; omega))
  · intro some clock start others armed
    have kept := keeps clock some start others armed
    refine ⟨kept.notMore, ?_⟩
    rintro rfl
    have alone : (readyTimes (trace.map Prod.fst)).length = 1 := by
      rw [runTrace_inputs ran, armed]
      rfl
    exact ⟨kept.notLess alone, kept.paced alone⟩

/-- A service with an update time of one second is armed, and updates once. -/
def oneUpdate : List ServiceEvent :=
  [.expireTimerReady 1000 2000, .expires 1000002000, .updateHandler 0 1000003000 1000004000]

theorem oneUpdate_forward : ClockForward oneUpdate := ⟨by decide, by decide⟩

/-- The update is told a thousand milliseconds, and the timer is armed again. -/
theorem service_updates_once : ∃ service trace,
    runTrace NetServiceImpl.step (.created 1000 0) oneUpdate = .ok (service, trace) ∧
      updates trace = [1000] ∧ service.waits ≤ 1 ∧
      (service.waits = 1 ∨ noError ∈ service.strand) ∧
      1000000 * (told trace : Int) ≤ service.prevTime - 1000 ∧
      service.prevTime - 1000 ≤ 1000000 * (told trace : Int) + 999999 * ((updates trace).length : Int) ∧
      ∀ elapse ∈ updates trace, 1000 ≤ elapse.toNat + 1 := by
  obtain ⟨service, trace, ran, told⟩ : ∃ service trace,
      runTrace NetServiceImpl.step (.created 1000 0) oneUpdate = .ok (service, trace) ∧
        updates trace = [1000] := ⟨_, _, rfl, rfl⟩
  obtain ⟨single, -, -, alive, time⟩ := service_updates ran
  obtain ⟨notMore, whenAlone⟩ := time (by decide) oneUpdate_forward 1000 [] rfl
  obtain ⟨notLess, paced⟩ := whenAlone rfl
  exact ⟨service, trace, ran, told, single, alive (by decide) (by decide), notMore, notLess, paced⟩

end LobbySvr.Proofs
