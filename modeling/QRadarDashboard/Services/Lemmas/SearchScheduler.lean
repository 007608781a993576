import QRadarDashboard.Services.SearchScheduler

/-!
# The schedule and its next fire
-/

namespace QRadarDashboard.Services
open Lib

/-- What is relied on of `CronTrigger`: the first fire from `now` on, and the least fire after a given one. -/
structure CronTrigger.FiresAt (trigger : CronTrigger) (fires : Set Int) : Prop where
  first : ∀ now, match trigger.getNextFireTime none now with
    | some f => IsLeast {x | x ∈ fires ∧ now ≤ x} f
    | none => ∀ x ∈ fires, x < now
  next : ∀ now, IsNext fires now (trigger.getNextFireTime (some now) now)

def SchedulerEnv.Fires (env : SchedulerEnv) (fires : String → String → Set Int) : Prop :=
  ∀ cron timezone, match env.fromCrontab cron timezone with
    | some trigger => trigger.FiresAt (fires cron timezone)
    | none => fires cron timezone = ∅

abbrev SchedulerTaken := Taken SchedulerState SchedulerEvent (SchedulerState × SchedulerOutcome)

namespace SchedulerTaken

def instant (i : Nat) (e : SchedulerTaken) : Option Int :=
  match e.output.2 with
  | .claimed j (.claimed scheduledFor _) => if j = i then some scheduledFor else none
  | _ => none

end SchedulerTaken

def instants (i : Nat) (tr : List SchedulerTaken) : List Int := tr.filterMap (SchedulerTaken.instant i)

def ScheduledSearchUpdate.cron (payload : ScheduledSearchUpdate) (search : ScheduledSearch) : String :=
  payload.scheduleCron.join.getD search.scheduleCron

def ScheduledSearchUpdate.timezone (payload : ScheduledSearchUpdate) (search : ScheduledSearch) : String :=
  payload.scheduleTimezone.join.getD search.scheduleTimezone

variable {env : SchedulerEnv} {fires : String → String → Set Int} {st st' : SchedulerState} {ev : SchedulerEvent}
  {out : SchedulerOutcome} {i : Nat} {search search' : ScheduledSearch}

/-! ## What a step does to a search -/

section Rows

structure ScheduledSearch.SameSchedule (search search' : ScheduledSearch) : Prop where
  cron : search'.scheduleCron = search.scheduleCron
  timezone : search'.scheduleTimezone = search.scheduleTimezone
  next : search'.nextRunAt = search.nextRunAt

inductive RowStep (env : SchedulerEnv) (st : SchedulerState) (ev : SchedulerEvent) (i : Nat)
    (search : ScheduledSearch) : ScheduledSearch → Option Int → Prop
  | same {new : ScheduledSearch} (h : search.SameSchedule new) : RowStep env st ev i search new none
  | edited {new : ScheduledSearch} (payload : ScheduledSearchUpdate) (clock : Int) (hev : ev = .update i payload clock)
      (hcron : new.scheduleCron = payload.cron search) (htimezone : new.scheduleTimezone = payload.timezone search)
      (hnext : new.nextRunAt = search.nextRunAt) : RowStep env st ev i search new none
  | seeded (cycle : Cycle) (fire : Int) (hcycle : st.cycle = some cycle) (hwaiting : i ∈ cycle.waiting)
      (hnext : search.nextRunAt = none)
      (hfire : nextFireTime env search.scheduleCron search.scheduleTimezone none cycle.now = .ok fire) :
      RowStep env st ev i search { search with nextRunAt := some fire } none
  | claimed (cycle : Cycle) (scheduledFor fire : Int) (hcycle : st.cycle = some cycle) (hwaiting : i ∈ cycle.waiting)
      (hnext : search.nextRunAt = some scheduledFor) (hdue : scheduledFor ≤ cycle.now)
      (hfire : nextFireTime env search.scheduleCron search.scheduleTimezone (some cycle.now) cycle.now = .ok fire) :
      RowStep env st ev i search { search with nextRunAt := some fire } (some scheduledFor)

structure StepRows (env : SchedulerEnv) (st : SchedulerState) (ev : SchedulerEvent) (st' : SchedulerState)
    (out : SchedulerOutcome) : Prop where
  kept : ∀ (i : Nat) search, st.searches[i]? = some search → ∃ search', st'.searches[i]? = some search' ∧
    RowStep env st ev i search search' (SchedulerTaken.instant i ⟨st, ev, (st', out)⟩)
  created : ∀ (i : Nat) search, st.searches[i]? = none → st'.searches[i]? = some search →
    search.nextRunAt = none
  absent : ∀ (i : Nat), st.searches[i]? = none → SchedulerTaken.instant i ⟨st, ev, (st', out)⟩ = none

theorem instant_claimed {n key} :
    SchedulerTaken.instant i ⟨st, ev, (st', .claimed i (.claimed n key))⟩ = some n := if_pos rfl

theorem ScheduledSearch.SameSchedule.refl (search : ScheduledSearch) : search.SameSchedule search := ⟨rfl, rfl, rfl⟩

theorem stepRows_same (hsearches : st'.searches = st.searches)
    (hout : ∀ i, SchedulerTaken.instant i ⟨st, ev, (st', out)⟩ = none) : StepRows env st ev st' out := by
  refine ⟨fun i search hrow => ⟨search, by rw [hsearches, hrow], ?_⟩, fun i search' hnone hrow => ?_, fun i _ => hout i⟩
  · rw [hout i]
    exact .same (.refl search)
  · rw [hsearches, hnone] at hrow
    cases hrow

theorem stepRows_set {j old new} (hold : st.searches[j]? = some old) (hsearches : st'.searches = st.searches.set j new)
    (hnew : RowStep env st ev j old new (SchedulerTaken.instant j ⟨st, ev, (st', out)⟩))
    (hout : ∀ i, i ≠ j → SchedulerTaken.instant i ⟨st, ev, (st', out)⟩ = none) : StepRows env st ev st' out := by
  obtain ⟨hlt, -⟩ := List.getElem?_eq_some_iff.mp hold
  refine ⟨fun i search hrow => ?_, fun i search' hnone hrow => ?_, fun i hnone => ?_⟩
  · by_cases hij : i = j
    · subst hij
      cases hold.symm.trans hrow
      exact ⟨new, by rw [hsearches, List.getElem?_set_self hlt], hnew⟩
    · refine ⟨search, by rw [hsearches, List.getElem?_set_ne (Ne.symm hij), hrow], ?_⟩
      rw [hout i hij]
      exact .same (.refl search)
  · rw [hsearches, List.getElem?_eq_none_iff.mpr (by simpa using hnone)] at hrow
    cases hrow
  · refine hout i ?_
    rintro rfl
    cases hold.symm.trans hnone

theorem assigned_ok {α : Type} {column} {value : Option (Option α)} {stored a}
    (h : assigned column value stored = .ok a) : a = value.join.getD stored := by
  cases value with
  | none => exact (Except.ok.inj h).symm
  | some value =>
    cases value with
    | none => cases h
    | some b => exact (Except.ok.inj h).symm

theorem assign_ok {payload : ScheduledSearchUpdate} (h : payload.assign search = .ok search') :
    search'.scheduleCron = payload.cron search ∧ search'.scheduleTimezone = payload.timezone search ∧
      search'.nextRunAt = search.nextRunAt := by
  obtain ⟨cron, hcron, h⟩ := bind_ok h
  obtain ⟨timezone, htimezone, h⟩ := bind_ok h
  obtain ⟨_, -, h⟩ := bind_ok h
  obtain ⟨_, -, h⟩ := bind_ok h
  obtain ⟨_, -, h⟩ := bind_ok h
  obtain ⟨_, -, h⟩ := bind_ok h
  cases h
  exact ⟨assigned_ok hcron, assigned_ok htimezone, rfl⟩

theorem create_ok {payload clock} (h : st.create env payload clock = .ok st') :
    ∃ search, st'.searches = st.searches ++ [search] ∧ search.nextRunAt = none ∧ st'.cycle = st.cycle ∧
      st'.lastCycleAt = st.lastCycleAt ∧ st'.consideredAt = st.consideredAt := by
  obtain ⟨_, -, h⟩ := bind_ok h
  obtain ⟨_, -, h⟩ := bind_ok h
  obtain ⟨_, -, h⟩ := bind_ok h
  cases h
  exact ⟨_, rfl, rfl, rfl, rfl, rfl⟩

theorem update_ok {payload : ScheduledSearchUpdate} {clock} (h : st.update env i payload clock = .ok st') :
    ∃ search search', st.searches[i]? = some search ∧ st'.searches = st.searches.set i search' ∧
      search'.scheduleCron = payload.cron search ∧ search'.scheduleTimezone = payload.timezone search ∧
      search'.nextRunAt = search.nextRunAt ∧ st'.cycle = st.cycle ∧ st'.lastCycleAt = st.lastCycleAt ∧
      st'.consideredAt = st.consideredAt := by
  simp only [SchedulerState.update] at h
  cases hrow : st.searches[i]? with
  | none => simp [hrow] at h
  | some search =>
    rw [hrow] at h
    obtain ⟨_, -, h⟩ := bind_ok h
    obtain ⟨_, -, h⟩ := bind_ok h
    obtain ⟨_, -, h⟩ := bind_ok h
    obtain ⟨edited, hassign, h⟩ := bind_ok h
    obtain ⟨hcron, htimezone, hnext⟩ := assign_ok hassign
    cases haql : payload.newAql search with
    | none =>
      rw [haql] at h
      cases h
      exact ⟨search, edited, rfl, rfl, hcron, htimezone, hnext, rfl, rfl, rfl⟩
    | some aql =>
      rw [haql] at h
      cases h
      exact ⟨search, _, rfl, rfl, hcron, htimezone, hnext, rfl, rfl, rfl⟩

theorem claimLocked_cases {locked now clock outcome} (h : st.claimLocked env i locked now clock = (outcome, st')) :
    st'.lastCycleAt = st.lastCycleAt ∧ st'.consideredAt = st.consideredAt ∧
    ((st'.searches = st.searches ∧ ∀ n key, outcome ≠ .claimed n key) ∨
     (∃ search fire, st.searches[i]? = some search ∧ search.nextRunAt = none ∧
      nextFireTime env search.scheduleCron search.scheduleTimezone none now = .ok fire ∧ outcome = .seeded fire ∧
      st'.searches = st.searches.set i { search with nextRunAt := some fire }) ∨
     (∃ search n fire, st.searches[i]? = some search ∧ search.nextRunAt = some n ∧ n ≤ now ∧
      nextFireTime env search.scheduleCron search.scheduleTimezone (some now) now = .ok fire ∧
      outcome = .claimed n (scheduledRunKey n) ∧
      st'.searches = st.searches.set i { search with nextRunAt := some fire })) := by
  simp only [SchedulerState.claimLocked] at h
  split at h
  · cases h
    exact ⟨rfl, rfl, .inl ⟨rfl, fun _ _ h => by cases h⟩⟩
  rename_i search hrow
  split at h
  · cases h
    exact ⟨rfl, rfl, .inl ⟨rfl, fun _ _ h => by cases h⟩⟩
  split at h
  · cases h
    exact ⟨rfl, rfl, .inl ⟨rfl, fun _ _ h => by cases h⟩⟩
  split at h
  · rename_i hnext
    split at h
    · cases h
      exact ⟨rfl, rfl, .inl ⟨rfl, fun _ _ h => by cases h⟩⟩
    · rename_i fire hfire
      cases h
      exact ⟨rfl, rfl, .inr (.inl ⟨search, fire, hrow, hnext, hfire, rfl, rfl⟩)⟩
  rename_i n hnext
  split at h
  · cases h
    exact ⟨rfl, rfl, .inl ⟨rfl, fun _ _ h => by cases h⟩⟩
  rename_i hdue
  split at h
  · cases h
    exact ⟨rfl, rfl, .inl ⟨rfl, fun _ _ h => by cases h⟩⟩
  split at h
  · cases h
    exact ⟨rfl, rfl, .inl ⟨rfl, fun _ _ h => by cases h⟩⟩
  rename_i fire hfire
  cases h
  exact ⟨rfl, rfl, .inr (.inr ⟨search, n, fire, hrow, hnext, Int.not_lt.mp hdue, hfire, rfl, rfl⟩)⟩

theorem record_cases (st : SchedulerState) (claim : Claim) (status : ExecutionStatus) (written : Bool) :
    (st.record claim status written).lastCycleAt = st.lastCycleAt ∧
    (st.record claim status written).consideredAt = st.consideredAt ∧
    ((st.record claim status written).searches = st.searches ∨
     ∃ search search', st.searches[claim.search]? = some search ∧ search.SameSchedule search' ∧
      (st.record claim status written).searches = st.searches.set claim.search search') := by
  unfold SchedulerState.record
  split
  · exact ⟨rfl, rfl, .inl rfl⟩
  · rename_i search hrow
    split
    · exact ⟨rfl, rfl, .inr ⟨search, { search with
        lastRunAt := some claim.scheduledFor
        consecutiveFailures := if status = .COMPLETED then 0 else search.consecutiveFailures + 1 },
        hrow, ⟨rfl, rfl, rfl⟩, rfl⟩⟩
    · exact ⟨rfl, rfl, .inl rfl⟩

inductive CycleStep (st : SchedulerState) : SchedulerState → Prop
  | listed {st' : SchedulerState} (now : Int)
      (hidle : st.cycle = none) (hclock : ∀ last, st.lastCycleAt = some last → last ≤ now)
      (hlast : st'.lastCycleAt = some now) (hconsidered : st'.consideredAt = listedAt st.consideredAt st.candidates now)
      (hcycle : ∀ cycle, st'.cycle = some cycle → cycle.now = now ∧ cycle.waiting = st.candidates)
      (hsearches : st'.searches = st.searches) : CycleStep st st'
  | kept {st' : SchedulerState} (hlast : st'.lastCycleAt = st.lastCycleAt) (hconsidered : st'.consideredAt = st.consideredAt)
      (hcycle : ∀ cycle', st'.cycle = some cycle' → ∃ cycle, st.cycle = some cycle ∧ cycle'.now = cycle.now ∧
        cycle'.waiting ⊆ cycle.waiting) : CycleStep st st'

theorem step_ok (h : st.step env ev = .ok (st', out)) : StepRows env st ev st' out ∧ CycleStep st st' := by
  cases ev with
  | create payload clock =>
    obtain ⟨_, hcreate, heq⟩ := map_eq_ok.mp h
    cases heq
    obtain ⟨search, hsearches, hnext, hcycle, hlast, hconsidered⟩ := create_ok hcreate
    refine ⟨⟨fun i old hrow => ⟨old, ?_, .same (.refl old)⟩, fun i new hnone hrow => ?_, fun _ _ => rfl⟩,
      .kept hlast hconsidered (fun cycle' h => ⟨cycle', hcycle ▸ h, rfl, fun _ hi => hi⟩)⟩
    · obtain ⟨hlt, -⟩ := List.getElem?_eq_some_iff.mp hrow
      rw [hsearches, List.getElem?_append_left hlt, hrow]
    · rw [hsearches, List.getElem?_append_right (List.getElem?_eq_none_iff.mp hnone)] at hrow
      have hnew := List.mem_of_getElem? hrow
      rw [List.mem_singleton.mp hnew]
      exact hnext
  | update j payload clock =>
    obtain ⟨_, hupdate, heq⟩ := map_eq_ok.mp h
    cases heq
    obtain ⟨search, search', hrow, hsearches, hcron, htimezone, hnext, hcycle, hlast, hconsidered⟩ := update_ok hupdate
    exact ⟨stepRows_set hrow hsearches (.edited payload clock rfl hcron htimezone hnext) (fun _ _ => rfl),
      .kept hlast hconsidered (fun cycle' h => ⟨cycle', hcycle ▸ h, rfl, fun _ hi => hi⟩)⟩
  | start now =>
    simp only [SchedulerState.step] at h
    split at h
    · cases h
    · rename_i hidle
      cases h
      rw [not_or] at hidle
      refine ⟨stepRows_same rfl (fun _ => rfl), .listed now (by simpa using hidle.1) ?_ rfl rfl ?_ rfl⟩
      · intro last hlast
        simpa [hlast] using hidle.2
      · rintro cycle ⟨⟩
        exact ⟨rfl, rfl⟩
  | claim locked clock =>
    simp only [SchedulerState.step] at h
    split at h
    · rename_i now j waiting report hcycle
      split at h
      · cases h
      · generalize hclaim : st.claimLocked env j locked now clock = claimed at h
        obtain ⟨outcome, st₁⟩ := claimed
        obtain ⟨hlast, hconsidered, hcases⟩ := claimLocked_cases hclaim
        cases h
        refine ⟨?_, .kept hlast hconsidered ?_⟩
        · rcases hcases with ⟨hsearches, hout⟩ | ⟨search, fire, hrow, hnext, hfire, rfl, hsearches⟩ |
            ⟨search, n, fire, hrow, hnext, hdue, hfire, rfl, hsearches⟩
          · refine stepRows_same hsearches (fun i => ?_)
            cases outcome with
            | claimed n key => exact absurd rfl (hout n key)
            | _ => rfl
          · exact stepRows_set hrow hsearches (.seeded _ fire hcycle List.mem_cons_self hnext hfire) (fun _ _ => rfl)
          · refine stepRows_set hrow hsearches ?_ (fun i hij => if_neg (Ne.symm hij))
            rw [instant_claimed]
            exact .claimed _ n fire hcycle List.mem_cons_self hnext hdue hfire
        · rintro cycle' ⟨⟩
          exact ⟨_, hcycle, rfl, fun _ hi => List.mem_cons_of_mem j hi⟩
    · cases h
  | record status capacity written =>
    simp only [SchedulerState.step] at h
    split at h
    · rename_i now waiting report claim hcycle
      obtain ⟨hlast, hconsidered, hcases⟩ := record_cases st claim status written
      have hrows : ∀ (st'' : SchedulerState) out, st''.searches = (st.record claim status written).searches →
          (∀ i, SchedulerTaken.instant i ⟨st, .record status capacity written, (st'', out)⟩ = none) →
          StepRows env st (.record status capacity written) st'' out := by
        intro st'' out hsame hout
        rcases hcases with hsearches | ⟨search, search', hrow, hschedule, hsearches⟩
        · exact stepRows_same (hsame.trans hsearches) hout
        · refine stepRows_set hrow (hsame.trans hsearches) ?_ (fun i _ => hout i)
          rw [hout]
          exact .same hschedule
      split at h
      · cases h
        exact ⟨hrows _ _ rfl (fun _ => rfl), .kept hlast hconsidered nofun⟩
      · cases h
        refine ⟨hrows _ _ rfl (fun _ => rfl), .kept hlast hconsidered ?_⟩
        rintro cycle' ⟨⟩
        exact ⟨_, hcycle, rfl, fun _ hi => hi⟩
    · cases h
  | finish =>
    simp only [SchedulerState.step] at h
    split at h
    · cases h
      exact ⟨stepRows_same rfl (fun _ => rfl), .kept rfl rfl nofun⟩
    · cases h
  | executions rows =>
    cases h
    exact ⟨stepRows_same rfl (fun _ => rfl), .kept rfl rfl (fun cycle' h => ⟨cycle', h, rfl, fun _ hi => hi⟩)⟩

end Rows

/-! ## The next fire -/

section NextFire

variable {cron timezone : String} {now fire : Int}

theorem nextFireTime_ok {after} (h : nextFireTime env cron timezone after now = .ok fire) :
    ∃ trigger, env.fromCrontab cron timezone = some trigger ∧ trigger.getNextFireTime after now = some fire := by
  unfold nextFireTime at h
  split at h
  · cases h
  · rename_i trigger htrigger
    split at h
    · cases h
    · rename_i f hf
      cases h
      exact ⟨trigger, htrigger, hf⟩

theorem firesAt (henv : env.Fires fires) {trigger} (h : env.fromCrontab cron timezone = some trigger) :
    trigger.FiresAt (fires cron timezone) := by
  have := henv cron timezone
  rw [h] at this
  exact this

theorem first_fire (henv : env.Fires fires) (h : nextFireTime env cron timezone none now = .ok fire) :
    IsLeast {x | x ∈ fires cron timezone ∧ now ≤ x} fire := by
  obtain ⟨trigger, htrigger, hfire⟩ := nextFireTime_ok h
  have := (firesAt henv htrigger).first now
  rw [hfire] at this
  exact this

theorem fire_after (henv : env.Fires fires) (h : nextFireTime env cron timezone (some now) now = .ok fire) :
    IsNext (fires cron timezone) now (some fire) := by
  obtain ⟨trigger, htrigger, hfire⟩ := nextFireTime_ok h
  have := (firesAt henv htrigger).next now
  rw [hfire] at this
  exact this

end NextFire

/-! ## What the cycles know of a search -/

section Cycles

structure CycleInv (st : SchedulerState) : Prop where
  listed : ∀ cycle, st.cycle = some cycle → ∀ i ∈ cycle.waiting, st.consideredAt i = some cycle.now
  past : ∀ i considered, st.consideredAt i = some considered → ∃ last, st.lastCycleAt = some last ∧ considered ≤ last

theorem listedAt_mem {consideredAt : Nat → Option Int} {searches now} (h : i ∈ searches) :
    listedAt consideredAt searches now i = some now := if_pos h

theorem cycleInv_initial : CycleInv {} := ⟨nofun, nofun⟩

theorem CycleInv.step (hinv : CycleInv st) (hstep : CycleStep st st') : CycleInv st' := by
  cases hstep with
  | listed now hidle hclock hlast hconsidered hcycle hsearches =>
    refine ⟨fun cycle h i hi => ?_, fun i considered h => ?_⟩
    · obtain ⟨rfl, hwaiting⟩ := hcycle cycle h
      rw [hconsidered, listedAt_mem (hwaiting ▸ hi)]
    · refine ⟨now, hlast, ?_⟩
      rw [hconsidered] at h
      unfold listedAt at h
      split at h
      · exact (Option.some.inj h).symm.le
      · obtain ⟨last, hprev, hle⟩ := hinv.past i considered h
        exact hle.trans (hclock last hprev)
  | kept hlast hconsidered hcycle =>
    refine ⟨fun cycle' h i hi => ?_, fun i considered h => ?_⟩
    · obtain ⟨cycle, hold, hnow, hsub⟩ := hcycle cycle' h
      rw [hconsidered, hnow]
      exact hinv.listed cycle hold i (hsub hi)
    · rw [hlast]
      exact hinv.past i considered (hconsidered ▸ h)

theorem CycleInv.later (hinv : CycleInv st) (hstep : CycleStep st st') {considered}
    (h : st.consideredAt i = some considered) :
    ∃ considered', st'.consideredAt i = some considered' ∧ considered ≤ considered' := by
  cases hstep with
  | listed now hidle hclock hlast hconsidered hcycle hsearches =>
    rw [hconsidered]
    unfold listedAt
    split
    · obtain ⟨last, hprev, hle⟩ := hinv.past i considered h
      exact ⟨now, rfl, hle.trans (hclock last hprev)⟩
    · exact ⟨considered, h, le_rfl⟩
  | kept hlast hconsidered hcycle => exact ⟨considered, hconsidered ▸ h, le_rfl⟩

end Cycles

/-! ## The schedule in force -/

section InForce

/-- The next fire is one of the schedule, and the schedule has none between the last cycle that listed the search and
it. -/
def ScheduledSearch.InStep (fires : String → String → Set Int) (considered : Option Int) (search : ScheduledSearch) : Prop :=
  ∀ n, search.nextRunAt = some n → n ∈ fires search.scheduleCron search.scheduleTimezone ∧
    ∃ c, considered = some c ∧ ∀ f ∈ fires search.scheduleCron search.scheduleTimezone, c < f → n ≤ f

/-- The edit leaves the fire times as they are, or finds a next fire that is right for the new ones. -/
def ScheduledSearchUpdate.KeepsInStep (fires : String → String → Set Int) (payload : ScheduledSearchUpdate)
    (considered : Option Int) (search : ScheduledSearch) : Prop :=
  ∀ n, search.nextRunAt = some n →
    fires (payload.cron search) (payload.timezone search) = fires search.scheduleCron search.scheduleTimezone ∨
    (n ∈ fires (payload.cron search) (payload.timezone search) ∧
      ∀ c, considered = some c → ∀ f ∈ fires (payload.cron search) (payload.timezone search), c < f → n ≤ f)

def SchedulerTaken.KeepsInStep (fires : String → String → Set Int) (e : SchedulerTaken) : Prop :=
  ∀ i payload clock search, e.input = .update i payload clock → e.before.searches[i]? = some search →
    payload.KeepsInStep fires (e.before.consideredAt i) search

theorem ScheduledSearch.InStep.later {considered considered'} (h : search.InStep fires considered)
    (hlater : ∀ c, considered = some c → ∃ c', considered' = some c' ∧ c ≤ c') : search.InStep fires considered' := by
  intro n hn
  obtain ⟨hmem, c, hc, hfirst⟩ := h n hn
  obtain ⟨c', hc', hle⟩ := hlater c hc
  exact ⟨hmem, c', hc', fun f hf hlt => hfirst f hf (hle.trans_lt hlt)⟩

theorem ScheduledSearch.InStep.row (henv : env.Fires fires) (hinv : CycleInv st) {instant}
    (h : search.InStep fires (st.consideredAt i)) (hrow : st.searches[i]? = some search)
    (hkeep : SchedulerTaken.KeepsInStep fires ⟨st, ev, (st', out)⟩) (hstep : RowStep env st ev i search search' instant) :
    search'.InStep fires (st.consideredAt i) := by
  cases hstep with
  | same hsame =>
    intro n hn
    rw [hsame.cron, hsame.timezone]
    exact h n (hsame.next ▸ hn)
  | edited payload clock hev hcron htimezone hnext =>
    intro n hn
    rw [hnext] at hn
    obtain ⟨hmem, c, hc, hfirst⟩ := h n hn
    rw [hcron, htimezone]
    rcases hkeep i payload clock search hev hrow n hn with hsame | ⟨hnew, hbefore⟩
    · rw [hsame]
      exact ⟨hmem, c, hc, hfirst⟩
    · exact ⟨hnew, c, hc, hbefore c hc⟩
  | seeded cycle fire hcycle hwaiting hnext hfire =>
    rintro n ⟨⟩
    have hleast := first_fire henv hfire
    exact ⟨hleast.1.1, cycle.now, hinv.listed cycle hcycle i hwaiting, fun f hf hlt => hleast.2 ⟨hf, hlt.le⟩⟩
  | claimed cycle scheduledFor fire hcycle hwaiting hnext hdue hfire =>
    rintro n ⟨⟩
    have hafter := fire_after henv hfire
    exact ⟨hafter.mem, cycle.now, hinv.listed cycle hcycle i hwaiting, fun f hf hlt => hafter.2 ⟨hf, hlt⟩⟩

def SchedulerState.InStep (fires : String → String → Set Int) (st : SchedulerState) : Prop :=
  ∀ (i : Nat) search, st.searches[i]? = some search → search.InStep fires (st.consideredAt i)

theorem inStep_initial : SchedulerState.InStep fires {} := fun i search h => by simp at h

theorem SchedulerState.InStep.step (henv : env.Fires fires) (hinv : CycleInv st) (h : st.InStep fires)
    (hkeep : SchedulerTaken.KeepsInStep fires ⟨st, ev, (st', out)⟩) (hstep : st.step env ev = .ok (st', out)) :
    st'.InStep fires := by
  obtain ⟨hrows, hcycle⟩ := step_ok hstep
  intro i search' hrow'
  cases hold : st.searches[i]? with
  | none =>
    intro n hn
    rw [hrows.created i search' hold hrow'] at hn
    cases hn
  | some search =>
    obtain ⟨found, hfound, hmove⟩ := hrows.kept i search hold
    cases hfound.symm.trans hrow'
    exact ((h i search hold).row henv hinv hold hkeep hmove).later (fun c hc => hinv.later hcycle hc)

theorem instant_inForce (hstep : st.step env ev = .ok (st', out)) (h : st.InStep fires) {n}
    (hinstant : SchedulerTaken.instant i ⟨st, ev, (st', out)⟩ = some n) :
    ∃ search, st.searches[i]? = some search ∧ n ∈ fires search.scheduleCron search.scheduleTimezone := by
  obtain ⟨hrows, -⟩ := step_ok hstep
  cases hold : st.searches[i]? with
  | none => cases (hrows.absent i hold).symm.trans hinstant
  | some search =>
    obtain ⟨search', -, hmove⟩ := hrows.kept i search hold
    rw [hinstant] at hmove
    cases hmove with
    | claimed cycle scheduledFor fire hcycle hwaiting hnext hdue hfire => exact ⟨search, rfl, (h i search hold _ hnext).1⟩

end InForce

/-! ## The instants of a run -/

section Instants

def Spent (i : Nat) (tr : List SchedulerTaken) (st : SchedulerState) : Prop :=
  ∀ s ∈ instants i tr, ∃ search n, st.searches[i]? = some search ∧ search.nextRunAt = some n ∧ s < n

theorem instants_snoc {tr e} : instants i (tr ++ [e]) = instants i tr ++ (e.instant i).toList := by
  simp only [instants, List.filterMap_append]
  cases h : e.instant i <;> simp [h]

theorem claim_ahead (henv : env.Fires fires) (hstep : st.step env ev = .ok (st', out)) {n}
    (hinstant : SchedulerTaken.instant i ⟨st, ev, (st', out)⟩ = some n) :
    ∃ search search' cycle next, st.searches[i]? = some search ∧ search.nextRunAt = some n ∧
      st'.searches[i]? = some search' ∧ search'.nextRunAt = some next ∧ st.cycle = some cycle ∧
      n ≤ cycle.now ∧ cycle.now < next := by
  obtain ⟨hrows, -⟩ := step_ok hstep
  cases hold : st.searches[i]? with
  | none => cases (hrows.absent i hold).symm.trans hinstant
  | some search =>
    obtain ⟨search', hfound, hmove⟩ := hrows.kept i search hold
    rw [hinstant] at hmove
    cases hmove with
    | claimed cycle scheduledFor fire hcycle hwaiting hnext hdue hfire =>
      exact ⟨search, _, cycle, fire, rfl, hnext, hfound, rfl, hcycle, hdue, (fire_after henv hfire).lt⟩

theorem Spent.step (henv : env.Fires fires) {tr} (h : Spent i tr st)
    (hstep : st.step env ev = .ok (st', out)) : Spent i (tr ++ [⟨st, ev, (st', out)⟩]) st' := by
  obtain ⟨hrows, -⟩ := step_ok hstep
  intro s hs
  rw [instants_snoc] at hs
  rcases List.mem_append.mp hs with hs | hs
  · obtain ⟨search, n, hold, hnext, hlt⟩ := h s hs
    obtain ⟨search', hfound, hmove⟩ := hrows.kept i search hold
    generalize SchedulerTaken.instant i ⟨st, ev, (st', out)⟩ = instant at hmove
    cases hmove with
    | same hsame => exact ⟨search', n, hfound, hsame.next.trans hnext, hlt⟩
    | edited payload clock hev hcron htimezone hsame => exact ⟨search', n, hfound, hsame.trans hnext, hlt⟩
    | seeded cycle fire hcycle hwaiting hnone hfire => cases hnone.symm.trans hnext
    | claimed cycle scheduledFor fire hcycle hwaiting hsome hdue hfire =>
      cases hsome.symm.trans hnext
      exact ⟨_, fire, hfound, rfl, (hlt.trans_le hdue).trans (fire_after henv hfire).lt⟩
  · obtain ⟨search, search', cycle, next, hold, hnext, hfound, hnext', hcycle, hdue, hahead⟩ :=
      claim_ahead henv hstep (Option.mem_toList.mp hs)
    exact ⟨search', next, hfound, hnext', hdue.trans_lt hahead⟩

theorem Spent.increasing (henv : env.Fires fires) {tr} (h : Spent i tr st) (hstep : st.step env ev = .ok (st', out))
    (hpairs : (instants i tr).Pairwise (· < ·)) : (instants i (tr ++ [⟨st, ev, (st', out)⟩])).Pairwise (· < ·) := by
  rw [instants_snoc]
  refine List.pairwise_append.mpr ⟨hpairs, ?_, fun s hs n hn => ?_⟩
  · cases SchedulerTaken.instant i ⟨st, ev, (st', out)⟩ <;> simp
  · obtain ⟨search, n', hold, hnext, hlt⟩ := h s hs
    obtain ⟨found, _, _, _, hfound, hdue, -⟩ := claim_ahead henv hstep (Option.mem_toList.mp hn)
    cases hold.symm.trans hfound
    cases hnext.symm.trans hdue
    exact hlt

end Instants

end QRadarDashboard.Services
