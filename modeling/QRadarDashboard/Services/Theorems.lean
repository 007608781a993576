import QRadarDashboard.Alerts.Theorems
import QRadarDashboard.Services.Lemmas.AqlValidator
import QRadarDashboard.Services.Lemmas.ArielPermit
import QRadarDashboard.Services.Lemmas.CronFloor
import QRadarDashboard.Services.Lemmas.Dashboards
import QRadarDashboard.Services.Lemmas.Profiles
import QRadarDashboard.Services.Lemmas.SearchAlerts
import QRadarDashboard.Services.Lemmas.SearchCadence
import QRadarDashboard.Services.Lemmas.SearchExecutor
import QRadarDashboard.Services.Lemmas.SearchScheduler

/-!
# Services
-/

namespace QRadarDashboard.Services

open Lib

/-! ## Ariel permits -/

section ArielPermit

/-- In every state that any interleaving reaches, no pool is oversubscribed, background work stays out of the slots
reserved for live work, and a permit is one slot of each pool that applies. An acquisition ends with no lock. -/
theorem permits_not_oversubscribed {π ι γ : Type} [DecidableEq π] [DecidableEq γ] (cfg : PermitSettings)
    (digest : ι → Nat) {tr : List (Taken (PermitState π ι γ) (π × PermitEvent ι γ) (PermitState π ι γ))}
    {st : PermitState π ι γ} (h : Run (PermitState.step cfg digest) id .initial tr st) :
    PermitSafe cfg digest st ∧
      ∀ e ∈ tr, ∀ p a, e.before.task p = some a → e.output.task p = none →
        e.output.locks.held a.conn = ∅ := by
  refine ⟨(permitInv_run h).safe, ?_⟩
  intro e he p a hp hend
  exact held_of_ended (h.taken e he) hp hend

theorem defaultInstanceLimit_range : 1 ≤ 3 ∧ 3 ≤ 20 := by decide

def defaultPermitSettings : PermitSettings where
  instanceLimit := 3
  globalLimit := 6
  globalNamespace := 4713
  instanceNamespace := 4714
  waitSeconds := 30
  pollSeconds := 1
  reservedLiveSlots := 2
  instanceLimit_range := defaultInstanceLimit_range
  globalLimit_range := by decide
  reserved_lt := by decide
  namespaces_ne := by decide

def permitLifecycle : List (Nat × PermitEvent Nat Nat) :=
  [(0, .connect 10 (some 7) .live 0), (0, .enter 1), (0, .tryLock), (0, .enter 4), (0, .tryLock), (0, .leave),
    (0, .unlocked)]

theorem permits_not_oversubscribed_lifecycle :
    ∃ tr st, Run (PermitState.step defaultPermitSettings (fun id : Nat => id)) id .initial tr st ∧
      tr.map Taken.input = permitLifecycle ∧ PermitSafe defaultPermitSettings (fun id => id) st ∧
      ∀ e ∈ tr, ∀ p a, e.before.task p = some a → e.output.task p = none →
        e.output.locks.held a.conn = ∅ := by
  obtain ⟨tr, st, hrun, hinputs, -⟩ := exists_run_of_all
    (PermitState.step (π := Nat) (γ := Nat) defaultPermitSettings (fun id : Nat => id)) id .initial
    permitLifecycle (fun _ => true) (by decide)
  obtain ⟨hsafe, hended⟩ := permits_not_oversubscribed _ _ hrun
  exact ⟨tr, st, hrun, hinputs, hsafe, hended⟩

def onePermitSettings : PermitSettings :=
  { defaultPermitSettings with
    globalLimit := 1, waitSeconds := 0, reservedLiveSlots := 0
    globalLimit_range := by decide, reserved_lt := by decide }

/-- A task without a console takes the only global slot; a task of console 7 takes a console slot and is refused. -/
def permitRefusal : List (Nat × PermitEvent Nat Nat) :=
  [(0, .connect 10 none .live 0), (0, .enter 0), (0, .tryLock),
    (1, .connect 11 (some 7) .live 0), (1, .enter 0), (1, .tryLock), (1, .enter 0), (1, .tryLock), (1, .clock 0)]

/-- Task 0 holds its permit without a console slot; task 1, refused, still has its console slot while its caller's block
runs. -/
theorem permit_without_console_slot :
    ∃ tr st, Run (PermitState.step onePermitSettings (fun id => id)) id
        (.initial : PermitState Nat Nat Nat) tr st ∧
      (∃ a globalSlot, st.task 0 = some a ∧ a.phase = .holding none globalSlot ∧
        ∀ slot, (onePermitSettings.instanceNamespace, slot) ∉ st.locks.held a.conn) ∧
      ∃ a slot, st.task 1 = some a ∧ a.phase = .refused (some slot) ∧
        (onePermitSettings.instanceNamespace, slot) ∈ st.locks.held a.conn := by
  obtain ⟨tr, st, hrun, hst⟩ := exists_run_of_replay
    (PermitState.step (π := Nat) (γ := Nat) onePermitSettings (fun id : Nat => id)) id .initial permitRefusal
    (fun r => (r.2.task 0, r.2.task 1, r.2.locks (4714, 21)))
    (some ⟨10, none, .live, 0, .holding none 0⟩, some ⟨11, some 7, .live, 0, .refused (some 21)⟩, some 11)
    (by with_unfolding_all decide)
  simp only [Prod.mk.injEq] at hst
  obtain ⟨hholder, hrefused, hslot⟩ := hst
  refine ⟨tr, st, hrun, ⟨_, 0, hholder, rfl, ?_⟩, _, 21, hrefused, rfl, hslot⟩
  intro slot hmem
  have hfits := (permitInv_run hrun).fits hholder
  have hheld := hfits.keys _ rfl
  simp [hheld, onePermitSettings, defaultPermitSettings] at hmem

end ArielPermit

/-! ## The cron floor -/

section CronFloor

/-- The whole-day scan, where it returns a check, returns the walk's. The check accepts an admitted schedule exactly
when every two successive fires, the earlier one inside the horizon, are at least five minutes apart. -/
theorem cron_floor_scan_eq_walk (fromCrontab : String → String → Option CronTrigger) (cron timezone : String)
    (trigger : CronTrigger) (hparsed : fromCrontab cron timezone = some trigger) (fires : Set Int)
    (hlaw : trigger.Lawful fires) (now first : Int) (hfirst : trigger.getNextFireTime none now = some first) :
    (∀ (horizonEnd minGap : Int) (limit : Nat),
      trigger.fastCronFloor horizonEnd (limit + 1) minGap first = none ∨
        trigger.fastCronFloor horizonEnd (limit + 1) minGap first =
          some (walkCronFloor trigger horizonEnd minGap (limit + 1) first 0 none)) ∧
      ∃ check, checkCronFloor fromCrontab cron timezone now cronFloorSeconds cronFloorHorizon none = .ok check ∧
        (check.accepted = true ↔ ∀ f g, Successive fires f g → now ≤ f → f < now + cronFloorHorizon →
          cronFloorSeconds * secondSpan ≤ g - f) := by
  have hleast : IsLeast {x | x ∈ fires ∧ now ≤ x} first := by
    have := hlaw.first now
    rwa [hfirst] at this
  refine ⟨fun horizonEnd minGap limit => ?_, checkCronFloor_default hparsed hlaw hfirst hleast⟩
  exact fastCronFloor_none_or hlaw hleast.1.1 (Nat.succ_pos limit)

def midnightTrigger : CronTrigger where
  timezone := ⟨fun _ => 0, fun _ => 0⟩
  second := fun second => second = 0
  minute := fun minute => minute = 0
  hour := fun hour => hour = 0
  dateFields := []
  getNextFireTime
    | none, now => some (-(-now / daySpan) * daySpan)
    | some previous, _ => some ((previous / daySpan + 1) * daySpan)

theorem midnightTrigger_lawful : midnightTrigger.Lawful {t | t % daySpan = 0} := by
  refine ⟨fun now => ?_, fun previous => ?_, fun day minutes _ hminutes t hlow hhigh => ?_⟩
  · refine ⟨⟨by simp [daySpan, minuteSpan, secondSpan], ?_⟩, ?_⟩
    · simp only [daySpan, minuteSpan, secondSpan]
      omega
    · rintro x ⟨hx, hnow⟩
      simp only [Set.mem_ofPred_eq, daySpan, minuteSpan, secondSpan] at hx ⊢
      omega
  · refine isNext_of_gap ?_ ?_ ?_
    · simp [daySpan, minuteSpan, secondSpan]
    · simp only [daySpan, minuteSpan, secondSpan]
      omega
    · intro x hx hlt
      simp only [Set.mem_ofPred_eq, daySpan, minuteSpan, secondSpan] at hx ⊢
      omega
  · have hlist : midnightTrigger.wallMinutes = some [0] := by decide
    cases hlist.symm.trans hminutes
    have hmid : midnightTrigger.timezone.midnightUtc day = day * daySpan := by
      simp [midnightTrigger, TimeZone.midnightUtc]
    rw [hmid] at hlow hhigh ⊢
    have hallowed : midnightTrigger.dayAllowed day = true := rfl
    simp only [Set.mem_ofPred_eq, hallowed, true_and, List.mem_singleton, exists_eq_left,
      daySpan, minuteSpan, secondSpan] at hlow hhigh ⊢
    omega

theorem cron_floor_scan_eq_walk_midnight :
    ((∀ (horizonEnd minGap : Int) (limit : Nat),
        midnightTrigger.fastCronFloor horizonEnd (limit + 1) minGap 0 = none ∨
          midnightTrigger.fastCronFloor horizonEnd (limit + 1) minGap 0 =
            some (walkCronFloor midnightTrigger horizonEnd minGap (limit + 1) 0 0 none)) ∧
      (midnightTrigger.fastCronFloor (7 * daySpan) (99 + 1) cronFloorSeconds 0).isSome = true) ∧
    ∃ check, checkCronFloor (fun cron timezone => if cron = "0 0 * * *" ∧ timezone = "UTC" then some midnightTrigger
        else none) "0 0 * * *" "UTC" 0 cronFloorSeconds cronFloorHorizon none = .ok check ∧
      (check.accepted = true ↔ ∀ f g, Successive {t : Int | t % daySpan = 0} f g → 0 ≤ f →
        f < 0 + cronFloorHorizon → cronFloorSeconds * secondSpan ≤ g - f) := by
  obtain ⟨hscan, hcheck⟩ := cron_floor_scan_eq_walk
    (fun cron timezone => if cron = "0 0 * * *" ∧ timezone = "UTC" then some midnightTrigger else none)
    "0 0 * * *" "UTC" midnightTrigger (by simp) _ midnightTrigger_lawful 0 0 rfl
  exact ⟨⟨hscan, by decide +kernel⟩, hcheck⟩

end CronFloor

/-! ## Saved dashboards -/

section Dashboards

open Lib.ReadCommitted

variable {β τ : Type} [DecidableEq τ] {env : DashboardEnv}

structure DashboardStepSafe (e : DashboardTaken β τ) : Prop where
  /-- An accepted replace or patch raises the revision by one. -/
  updated : ∀ id, DashboardTaken.Updates e id → ∃ row row', e.before.committed.get? id = some row ∧
    e.output.committed.get? id = some row' ∧ row'.revision = row.revision + 1
  /-- Nothing else changes a row that stays. -/
  kept : ∀ id row row', ¬ DashboardTaken.Updates e id → e.before.committed.get? id = some row →
    e.output.committed.get? id = some row' → row' = row
  /-- An accepted replace names the revision that it finds. -/
  replaced : ∀ id revision, DashboardTaken.Replaces e id revision →
    ∃ row, e.before.committed.get? id = some row ∧ row.revision = revision
  refused : DashboardTaken.accepted e = none → e.output.committed = e.before.committed
  /-- Whoever changes or deletes a dashboard owns it or holds `admin:*`. -/
  authorized : ∀ id row, e.before.committed.get? id = some row → e.output.committed.get? id ≠ some row →
    ∃ principal, DashboardTaken.caller e = some principal ∧
      (row.ownerSubject = principal.subject ∨ principal.has permAdmin = true)

/-- No update between an accepted replace and the revision that it names: whatever was updated before left a revision
of at most that. -/
def UnseenFree (tr : List (DashboardTaken β τ)) : Prop :=
  tr.Pairwise (fun e e' => ∀ id revision row, DashboardTaken.Updates e id → DashboardTaken.Replaces e' id revision →
    e.output.committed.get? id = some row → row.revision ≤ revision)

theorem dashboardStepSafe {db db' : DashboardDb β τ} (h : DashboardsOk env db) {move}
    (hstep : db.step DashboardTable.row enterDashboard (dashboardNext env) move = .ok db') :
    DashboardStepSafe ⟨db, move, db'⟩ where
  updated := by
    rintro id ⟨principal, change, row, haccepted⟩
    obtain ⟨hrow, _, hafter⟩ := h.updates hstep haccepted
    exact ⟨row, _, hrow, hafter, apply_revision principal row change⟩
  kept := fun id row row' hnot hrow hrow' => h.unchanged hstep hnot hrow hrow'
  replaced := by
    rintro id revision ⟨principal, body, row, haccepted, rfl⟩
    obtain ⟨hrow, hselects, _⟩ := h.updates hstep haccepted
    exact ⟨row, hrow, of_decide_eq_true hselects⟩
  refused := by
    intro hnone
    rcases h.accepts hstep with ⟨_, hsame⟩ | ⟨tx, hsome, _⟩
    · exact hsame
    · rw [hnone] at hsome
      cases hsome
  authorized := fun id row hrow hchanged => h.authorized hstep hrow hchanged

theorem dashboards_saved {t₀ : DashboardTable β} {tr : List (DashboardTaken β τ)} {db : DashboardDb β τ}
    (h : Steps DashboardTable.row enterDashboard (dashboardNext env) t₀ tr db) :
    (∀ e ∈ tr, DashboardStepSafe e) ∧ UnseenFree tr ∧
      (t₀.Limited → ∀ e ∈ tr, e.output.committed.Limited) ∧
      ∀ e ∈ tr, ∀ id id' row row', e.output.committed.get? id = some row → e.output.committed.get? id' = some row' →
        row.ownerSubject = row'.ownerSubject → row.name = row'.name → id = id' := by
  have hrun : DashboardsOk env db ∧ (∀ e ∈ tr, DashboardStepSafe e ∧ Grows e.output.committed db.committed) ∧
      UnseenFree tr ∧ (t₀.Limited → (∀ e ∈ tr, e.output.committed.Limited) ∧ db.committed.Limited) := by
    refine h.invariant' (fun tr db => DashboardsOk env db ∧
      (∀ e ∈ tr, DashboardStepSafe e ∧ Grows e.output.committed db.committed) ∧
      UnseenFree tr ∧ (t₀.Limited → (∀ e ∈ tr, e.output.committed.Limited) ∧ db.committed.Limited))
      ⟨dashboardsOk_quiet t₀, by simp, List.Pairwise.nil, fun hlimited => ⟨by simp, hlimited⟩⟩ ?_
    rintro tr db move db' ⟨hok, hsafe, hunseen, hlimited⟩ hstep
    have hnew := dashboardStepSafe hok hstep
    refine ⟨hok.step hstep, fun e he => ?_, ?_, fun hstart => ⟨fun e he => ?_, hok.limited hstep (hlimited hstart).2⟩⟩
    · rcases List.mem_append.mp he with he | he
      · exact ⟨(hsafe e he).1, (hsafe e he).2.trans (hok.grows hstep)⟩
      · rw [List.mem_singleton.mp he]
        exact ⟨hnew, Grows.refl _⟩
    · refine List.pairwise_append.mpr ⟨hunseen, List.pairwise_singleton _ _, fun e he e' he' => ?_⟩
      rw [List.mem_singleton.mp he']
      intro id revision row _ hreplaces hrow
      obtain ⟨found, hfound, rfl⟩ := hnew.replaced id revision hreplaces
      obtain ⟨row', hrow', _, hle⟩ := (hsafe e he).2.row (lt_nextId_of_get? hrow) hfound
      cases hrow.symm.trans hrow'
      exact hle
    · rcases List.mem_append.mp he with he | he
      · exact (hlimited hstart).1 e he
      · rw [List.mem_singleton.mp he]
        exact hok.limited hstep (hlimited hstart).2
  refine ⟨fun e he => (hrun.2.1 e he).1, hrun.2.2.1, fun hstart => (hrun.2.2.2 hstart).1, ?_⟩
  intro e _ id id' row row' hrow hrow' howner hname
  have hsame := e.output.committed.names _ (Dict.mem_of_get? hrow) _ (Dict.mem_of_get? hrow') howner hname
  exact congrArg Prod.fst hsame

def plainEnv : DashboardEnv := ⟨asciiTables, fun _ => 0⟩

def noDashboards : DashboardTable Unit where
  rows := []
  nextId := 0
  keys := by simp [Dict.keys]
  fresh := by simp
  names := by simp

def emptyLayout : DashboardLayout Unit := ⟨⟨1, ()⟩, by decide⟩

def twoTabs : List (Move Bool (Principal × DashboardOp Unit)) :=
  [.start false (⟨"ana", []⟩, .create { name := "Traffic", layout := emptyLayout }),
    .advance false, .advance false, .advance false, .advance false,
    .start false (⟨"ana", []⟩, .replace 0 { name := "Flows", layout := emptyLayout, expectedRevision := 1 }),
    .start true (⟨"ana", []⟩, .replace 0 { name := "Events", layout := emptyLayout, expectedRevision := 1 }),
    .advance false, .advance true, .advance false, .advance true, .advance false, .advance false,
    .advance true, .advance true, .advance true]

theorem dashboards_saved_twoTabs : ∃ (tr : List (DashboardTaken Unit Bool)) (db : DashboardDb Unit Bool),
    Steps DashboardTable.row enterDashboard (dashboardNext plainEnv) noDashboards tr db ∧
    (db.committed.get? 0).map (fun row => (row.name, row.revision)) = some ("Flows", 2) ∧
    (∀ e ∈ tr, DashboardStepSafe e) ∧ UnseenFree tr ∧ ∀ e ∈ tr, e.output.committed.Limited := by
  obtain ⟨tr, db, h, hrow⟩ := exists_run_of_replay
    (fun (db : DashboardDb Unit Bool) (move : Move Bool (Principal × DashboardOp Unit)) =>
      db.step DashboardTable.row enterDashboard (dashboardNext plainEnv) move)
    (fun db => db) (Db.quiet noDashboards) twoTabs
    (fun r => (r.2.committed.get? 0).map (fun row => (row.name, row.revision))) (some ("Flows", 2)) (by decide)
  obtain ⟨hsafe, hunseen, hlimited, _⟩ := dashboards_saved h
  have hstart : noDashboards.Limited := fun subject => by simp [DashboardTable.count, DashboardTable.ownedNames, noDashboards]
  exact ⟨tr, db, h, hrow, hsafe, hunseen, hlimited hstart⟩

/-- The loop of `copy_name` ends within two more turns than there are names, with a name that is free, fits and ends in
no space. -/
theorem copy_name_found (u : UnicodeTables) (hbracket : u.isspace ')' = false) (sourceName : String)
    {taken : List String} (hlimit : taken.dedup.length ≤ maxDashboardsPerOwner) {fuel : Nat}
    (hfuel : taken.dedup.length + 2 ≤ fuel) :
    ∃ name, copyNameFrom u sourceName taken fuel 1 = some name ∧ copyName u sourceName taken = name ∧ name ∉ taken ∧
      name.length ≤ maxNameLength ∧ ∀ c, name.toList.getLast? = some c → u.isspace c = false := by
  obtain ⟨name, hname⟩ := copyNameFrom_isSome u sourceName taken
  obtain ⟨hfree, n, _, hn, hcandidate⟩ := copyNameFrom_some hname
  have hcopy := copyNameFrom_mono (Nat.add_le_add_right (List.dedup_sublist taken).length_le 2) hname
  rw [copyNameFrom_copyName] at hcopy
  refine ⟨name, copyNameFrom_mono hfuel hname, Option.some.inj hcopy, hfree, ?_, ?_⟩
  · rw [hcandidate]
    exact length_copyCandidate u sourceName (by omega)
  · intro c hlast
    rw [hcandidate] at hlast
    exact last_copyCandidate hbracket n hlast

theorem copy_name_found_third : ∃ name,
    copyNameFrom asciiTables "Traffic" ["Traffic", "Copy of Traffic", "Copy of Traffic (2)"] 5 1 = some name ∧
    copyName asciiTables "Traffic" ["Traffic", "Copy of Traffic", "Copy of Traffic (2)"] = name ∧
    name ∉ ["Traffic", "Copy of Traffic", "Copy of Traffic (2)"] ∧ name.length ≤ maxNameLength ∧
    ∀ c, name.toList.getLast? = some c → asciiTables.isspace c = false :=
  copy_name_found asciiTables (by decide) "Traffic" (by decide) (by decide)

end Dashboards

/-! ## Source profiles -/

section Profiles
open Lib.ReadCommitted

variable {μ ℓ ρ τ : Type} [Columns μ] [DecidableEq μ] [Columns ℓ] [DecidableEq ℓ] [DecidableEq ρ] [DecidableEq τ]

/-- A profile that a collector may read with has a mapping that a task read, probed and found valid. A version names one
mapping for ever, and no version comes back. -/
theorem collected_mapping_validated {settings : ProfileSettings} {family : String} {logSource : Bool}
    {tr : List (ProfileTaken μ ℓ ρ τ)} {db : ProfileDb μ ℓ ρ τ}
    (h : Steps profileRow ProfileRequest.enter (profileNext settings family) ⟨logSource, none⟩ tr db) :
    (∀ p, db.committed.profile = some p →
      (∃ enabled monitoring, collectionIneligibility enabled monitoring p = none) ∨
        (∃ monitoring, ipsIneligibility monitoring p = none) →
      Validated tr p.mapping) ∧
      (∀ p q, Stored tr p → Stored tr q → p.profileVersion = q.profileVersion → p.mapping = q.mapping) ∧
      ∀ p, Stored tr p → ∃ q, db.committed.profile = some q ∧ p.profileVersion ≤ q.profileVersion := by
  have hinv := profileInv_of_steps h
  refine ⟨fun p hp heligible => ?_, hinv.named, hinv.latest⟩
  obtain ⟨hstatus, hversion⟩ := valid_of_eligible heligible
  exact (hinv.stored p hp).2.2 hstatus hversion

def siteMapping (url : String) : WafFieldMapping where
  url := url
  method := "HTTP Method"

def probeTask : ValidationTask WafFieldMapping Unit where
  lockRetryCount := 0
  sourceFound := true
  acquired := true
  validate mapping := .ok ⟨if mapping.url = "" then .invalid else .valid, ()⟩
  now := 0

/-- The mapping is replaced while a task probes it: the result is dropped, and the task of the new version validates it. -/
def replacedMapping : List (Move Bool (ProfileRequest WafFieldMapping ProductLabel Unit)) :=
  let put := fun version url => ProfileRequest.put ⟨version, .ok (siteMapping url), ⟨none⟩, 0, "ana"⟩
  [.start false (put none "Path"), .advance false, .advance false, .advance false,
    .start true (.task probeTask), .advance true,
    .start false (put (some 1) "URL"), .advance false, .advance false, .advance false, .advance false,
    .advance true, .advance true,
    .start true (.task probeTask), .advance true, .advance true, .advance true,
    .start false (.setEnabled true "ana"), .advance false, .advance false]

theorem collected_mapping_validated_replaced : ∃ (tr : List (ProfileTaken WafFieldMapping ProductLabel Unit Bool))
    (db : ProfileDb WafFieldMapping ProductLabel Unit Bool) (p : SourceProfile WafFieldMapping ProductLabel Unit),
    Steps profileRow ProfileRequest.enter (profileNext {} "WAF") ⟨true, none⟩ tr db ∧ db.committed.profile = some p ∧
      p.profileVersion = 2 ∧ collectionIneligibility true (some true) p = none ∧ Validated tr p.mapping := by
  obtain ⟨tr, db, h, hp⟩ := exists_run_of_replay
    (fun (db : ProfileDb WafFieldMapping ProductLabel Unit Bool)
      (move : Move Bool (ProfileRequest WafFieldMapping ProductLabel Unit)) =>
      db.step profileRow ProfileRequest.enter (profileNext {} "WAF") move)
    (fun db => db) (Db.quiet ⟨true, none⟩) replacedMapping
    (fun r => r.2.committed.profile.map (fun p => (p.profileVersion, collectionIneligibility true (some true) p)))
    (some (2, none)) (by decide)
  obtain ⟨p, hprofile, heq⟩ := Option.map_eq_some_iff.mp hp
  obtain ⟨hversion, heligible⟩ := Prod.mk.inj heq
  exact ⟨tr, db, p, h, hprofile, hversion, heligible,
    (collected_mapping_validated h).1 p hprofile (Or.inl ⟨true, some true, heligible⟩)⟩

end Profiles

/-! ## Scheduled searches -/

section SearchScheduler

variable {env : SchedulerEnv} {fires : String → String → Set Int}

def SchedulerTaken.InForce (fires : String → String → Set Int) (e : SchedulerTaken) : Prop :=
  ∀ i n, e.instant i = some n → ∃ search, e.before.searches[i]? = some search ∧
    n ∈ fires search.scheduleCron search.scheduleTimezone

def SchedulerTaken.Ahead (e : SchedulerTaken) : Prop :=
  ∀ i n, e.instant i = some n → ∃ search next cycle, e.output.1.searches[i]? = some search ∧
    search.nextRunAt = some next ∧ e.before.cycle = some cycle ∧ cycle.now < next

def SchedulerState.Timely (fires : String → String → Set Int) (st : SchedulerState) : Prop :=
  ∀ (i : Nat) search n, st.searches[i]? = some search → search.nextRunAt = some n →
    ∃ considered, st.consideredAt i = some considered ∧
      ∀ first, IsNext (fires search.scheduleCron search.scheduleTimezone) considered (some first) → n ≤ first

/-- No instant is dispatched twice and a claim moves the next fire past its cycle. While the edits keep the searches in
step, the schedule in force is the one stored. -/
theorem schedules_in_force (henv : env.Fires fires) {tr : List SchedulerTaken} {st : SchedulerState}
    (h : Run (SchedulerState.step env) Prod.fst {} tr st) :
    (∀ i, (instants i tr).Pairwise (· < ·)) ∧ (∀ e ∈ tr, e.Ahead) ∧
      ((∀ e ∈ tr, e.KeepsInStep fires) →
        (∀ e ∈ tr, e.InForce fires ∧ e.output.1.Timely fires) ∧ st.Timely fires) := by
  have hcycle : ∀ {tr st}, Run (SchedulerState.step env) Prod.fst {} tr st → CycleInv st := by
    intro tr st h
    refine h.invariant' (fun _ st => CycleInv st) cycleInv_initial ?_
    intro tr st ev out hinv hstep
    exact hinv.step (step_ok hstep).2
  have htimely : ∀ {st : SchedulerState}, st.InStep fires → st.Timely fires := by
    intro st hin i search n hrow hnext
    obtain ⟨-, considered, hconsidered, hfirst⟩ := hin i search hrow n hnext
    exact ⟨considered, hconsidered, fun first hnextFire => hfirst first hnextFire.mem hnextFire.lt⟩
  refine ⟨fun i => ?_, fun e he i n hinstant => ?_, fun hkeep => ?_⟩
  · refine (h.invariant' (fun tr st => Spent i tr st ∧ (instants i tr).Pairwise (· < ·)) ⟨nofun, .nil⟩ ?_).2
    rintro tr st ev ⟨st', out⟩ ⟨hspent, hpairs⟩ hstep
    exact ⟨hspent.step henv hstep, hspent.increasing henv hstep hpairs⟩
  · obtain ⟨_, search, cycle, next, _, _, hfound, hnext, hopen, _, hahead⟩ := claim_ahead henv (h.taken e he) hinstant
    exact ⟨search, next, cycle, hfound, hnext, hopen, hahead⟩
  · have hrun := h.invariant (fun (tr : List SchedulerTaken) st =>
      (∀ e ∈ tr, e.InForce fires ∧ e.output.1.Timely fires) ∧ CycleInv st ∧ st.InStep fires)
      (SchedulerTaken.KeepsInStep fires) ⟨by simp, cycleInv_initial, inStep_initial⟩ ?_ hkeep
    · exact ⟨hrun.1, htimely hrun.2.2⟩
    · rintro tr st ev ⟨st', out⟩ ⟨hdone, hinv, hin⟩ hkeeps hstep
      have hnew := hin.step henv hinv hkeeps hstep
      refine ⟨fun e he => ?_, hinv.step (step_ok hstep).2, hnew⟩
      rcases List.mem_append.mp he with he | he
      · exact hdone e he
      · rw [List.mem_singleton.mp he]
        exact ⟨fun i n hinstant => instant_inForce hstep hin hinstant, htimely hnew⟩

def midnightIn (offset : Int) : CronTrigger where
  timezone := ⟨fun _ => offset, fun _ => offset⟩
  second := fun second => second = 0
  minute := fun minute => minute = 0
  hour := fun hour => hour = 0
  dateFields := []
  getNextFireTime
    | none, now => some (-(-(now + offset) / daySpan) * daySpan - offset)
    | some previous, _ => some (((previous + offset) / daySpan + 1) * daySpan - offset)

def midnightOffset (cron timezone : String) : Option Int :=
  if cron ≠ "0 0 * * *" then none
  else if timezone = "UTC" then some 0
  else if timezone = "Asia/Tokyo" then some (540 * minuteSpan)
  else none

def midnightEnv : SchedulerEnv where
  fromCrontab := fun cron timezone => (midnightOffset cron timezone).map midnightIn
  scheduledSearchesMaxEnabled := 25
  searchMaxDispatchPerCycle := 10

def midnights (cron timezone : String) : Set Int :=
  {t | ∃ offset, midnightOffset cron timezone = some offset ∧ (t + offset) % daySpan = 0}

theorem midnightEnv_fires : midnightEnv.Fires midnights := by
  intro cron timezone
  cases h : midnightOffset cron timezone with
  | none => simp [midnightEnv, midnights, h]
  | some offset =>
    have hfires : midnights cron timezone = {t | (t + offset) % daySpan = 0} := by
      simp [midnights, h]
    simp only [midnightEnv, h, Option.map_some, hfires]
    refine ⟨fun now => ⟨⟨?_, ?_⟩, ?_⟩, fun now => isNext_of_gap ?_ ?_ ?_⟩
    · simp [daySpan, minuteSpan, secondSpan]
    · simp only [daySpan, minuteSpan, secondSpan]
      omega
    · rintro x ⟨hx, hnow⟩
      simp only [Set.mem_ofPred_eq, daySpan, minuteSpan, secondSpan] at hx ⊢
      omega
    · simp [daySpan, minuteSpan, secondSpan]
    · simp only [daySpan, minuteSpan, secondSpan]
      omega
    · intro x hx hlt
      simp only [Set.mem_ofPred_eq, daySpan, minuteSpan, secondSpan] at hx ⊢
      omega

def autumnDay : Int := 20731 * daySpan

def nightly : ScheduledSearchCreate where
  name := "nightly"
  aqlQuery := "SELECT COUNT(*) FROM events LAST 24 HOURS"
  scheduleCron := "0 0 * * *"

def nightlyRun : List SchedulerEvent :=
  [.create nightly autumnDay, .start (autumnDay + 360 * minuteSpan), .claim false autumnDay, .finish,
    .update 0 { enabled := some (some false) } autumnDay, .update 0 { enabled := some (some true) } autumnDay,
    .start (autumnDay + daySpan), .claim false (autumnDay + daySpan), .record .COMPLETED false true, .finish]

theorem schedules_in_force_nightly :
    ∃ (tr : List SchedulerTaken) (st : SchedulerState), Run (SchedulerState.step midnightEnv) Prod.fst {} tr st ∧
    instants 0 tr = [autumnDay + daySpan] ∧ (∀ i, (instants i tr).Pairwise (· < ·)) ∧ (∀ e ∈ tr, e.Ahead) ∧
    (∀ e ∈ tr, e.InForce midnights ∧ e.output.1.Timely midnights) ∧ st.Timely midnights := by
  obtain ⟨tr, st, hrun, hinputs, hinstants⟩ := exists_run_of_inputs (SchedulerState.step midnightEnv) Prod.fst {}
    nightlyRun (fun r => instants 0 r.1) [autumnDay + daySpan] (by decide +kernel)
  obtain ⟨hpairs, hahead, hkept⟩ := schedules_in_force midnightEnv_fires hrun
  refine ⟨tr, st, hrun, hinstants, hpairs, hahead, hkept ?_⟩
  rintro ⟨before, input, output⟩ he i payload clock search ⟨⟩ _ n _
  have hmem : SchedulerEvent.update i payload clock ∈ nightlyRun := hinputs ▸ List.mem_map_of_mem he
  left
  simp only [nightlyRun, List.mem_cons, reduceCtorEq, SchedulerEvent.update.injEq, List.not_mem_nil, or_false,
    false_or] at hmem
  rcases hmem with ⟨-, rfl, -⟩ | ⟨-, rfl, -⟩ <;> rfl

theorem midnights_tokyo : midnights "0 0 * * *" "Asia/Tokyo" = {t | (t + 540 * minuteSpan) % daySpan = 0} := by
  simp [midnights, midnightOffset]

def movedRun : List SchedulerEvent :=
  [.create nightly autumnDay, .start (autumnDay + 360 * minuteSpan), .claim false autumnDay, .finish,
    .update 0 { scheduleTimezone := some (some "Asia/Tokyo") } autumnDay,
    .start (autumnDay + daySpan), .claim false (autumnDay + daySpan), .record .COMPLETED false true, .finish]

def movedState (st : SchedulerState) : Bool :=
  decide (st.searches[0]?.map (fun search => (search.scheduleCron, search.scheduleTimezone, search.nextRunAt)) =
    some ("0 0 * * *", "Asia/Tokyo", some (autumnDay + daySpan)))

theorem moved_search_overtaken : midnightEnv.Fires midnights ∧
    ∃ (tr : List SchedulerTaken) (st : SchedulerState), Run (SchedulerState.step midnightEnv) Prod.fst {} tr st ∧
      tr.map Taken.input = movedRun ∧
      (∃ e ∈ tr, ¬ e.InForce midnights) ∧ ∃ e ∈ tr, ¬ e.output.1.Timely midnights := by
  obtain ⟨tr, st, hrun, hinputs, hmoved⟩ := exists_run_of_inputs (SchedulerState.step midnightEnv) Prod.fst {}
    movedRun (fun r => (r.1.any (fun (e : SchedulerTaken) => movedState e.before && e.instant 0 = some (autumnDay + daySpan)),
      r.1.any (fun e => movedState e.output.1 && e.output.1.consideredAt 0 = some (autumnDay + 360 * minuteSpan))))
    (true, true) (by decide +kernel)
  simp only [Prod.mk.injEq, List.any_eq_true, Bool.and_eq_true, decide_eq_true_eq, movedState,
    Option.map_eq_some_iff] at hmoved
  obtain ⟨⟨e, he, ⟨search, hrow, hschedule⟩, hinstant⟩, e', he', ⟨search', hrow', hschedule'⟩, hconsidered⟩ := hmoved
  refine ⟨midnightEnv_fires, tr, st, hrun, hinputs, ⟨e, he, fun hforce => ?_⟩, e', he', fun htimely => ?_⟩
  · obtain ⟨found, hfound, hmem⟩ := hforce 0 _ hinstant
    cases hrow.symm.trans hfound
    rw [hschedule.1, hschedule.2.1, midnights_tokyo] at hmem
    exact absurd hmem (by decide)
  · obtain ⟨considered, hlisted, hfirst⟩ := htimely 0 search' _ hrow' hschedule'.2.2
    cases hconsidered.symm.trans hlisted
    rw [hschedule'.1, hschedule'.2.1, midnights_tokyo] at hfirst
    have hnext : IsNext {t : Int | (t + 540 * minuteSpan) % daySpan = 0} (autumnDay + 360 * minuteSpan)
        (some (autumnDay + 900 * minuteSpan)) := by
      refine isNext_of_gap (by decide) (by decide) (fun x hx hlt => ?_)
      simp only [Set.mem_ofPred_eq, autumnDay, daySpan, minuteSpan, secondSpan] at hx hlt ⊢
      omega
    exact absurd (hfirst _ hnext) (by decide)

end SearchScheduler

/-! ## Cadence slots -/

section SearchCadence

/-- The slots are claimed in increasing order, each once, and the stored slot never goes back. A claim alone on a row
gets a slot exactly from the announced dispatch on, where a double counts the microseconds of the instants. -/
theorem cadence_slots_in_order {τ : Type} [DecidableEq τ] (cfg : CadenceSettings) {row₀ : Option CadenceRow}
    {tr : List (Taken (CadenceDb τ) (CadenceMove τ) (CadenceDb τ))} {db : CadenceDb τ}
    (h : Run (CadenceDb.step cfg) id { committed := row₀ } tr db) :
    db.claims.Pairwise (· < ·) ∧ (∀ e ∈ tr, SlotLe (lastSlot e.before.committed) (lastSlot e.output.committed)) ∧
      ∀ (row : CadenceRow) (now t : Int) (w : τ), now ≤ t → Representable (now - cfg.settleSeconds * 1000000) →
        Representable (t - cfg.settleSeconds * 1000000) → (∀ last, row.lastSlotStart = some last → Representable last) →
        ∃ tr db, Run (CadenceDb.step cfg) id { committed := some row } tr db ∧ tr.map Taken.input = claimAlone w t ∧
          db.session w = none ∧ (db.claims ≠ [] ↔ nextDispatchAt row cfg.settleSeconds now ≤ t) := by
  obtain ⟨hinv, hslots⟩ := cadenceForward_run h
  refine ⟨hinv.ordered, hslots, fun row now t w hnow hn ht hlast => ?_⟩
  obtain ⟨tr, db, hrun, hinputs, hended, hclaims⟩ := claimAlone_run cfg row w t
  exact ⟨tr, db, hrun, hinputs, hended, hclaims.trans (accepts_iff_dispatched hnow hn ht hlast)⟩

def fiveMinutes : CadenceSeconds := ⟨300, by decide⟩

def fourHours : CadenceSeconds := ⟨14400, by decide⟩

def defaultCadence : CadenceSettings where
  settleSeconds := 120
  presets := [fiveMinutes, fourHours]
  default := fiveMinutes

/-- Two workers claim the slot of 05:00 while an operator moves the family to four hours; one of them claims again at
08:02. -/
def claimedTwice : List (CadenceMove Nat) :=
  let five := 1791781320 * 1000000
  [.start 0 (.claim five), .start 1 (.claim five), .advance 0, .start 2 (.setCadence 14400), .advance 1, .advance 0, .advance 2,
    .advance 0, .advance 1, .advance 1, .advance 2, .advance 2] ++ claimAlone 0 (five + 3 * 3600 * 1000000)

theorem cadence_slots_in_order_claimed :
    ∃ (tr : List (Taken (CadenceDb Nat) (CadenceMove Nat) (CadenceDb Nat))) (db : CadenceDb Nat),
    Run (CadenceDb.step defaultCadence) id { committed := some ⟨fiveMinutes, none⟩ } tr db ∧
      tr.map Taken.input = claimedTwice ∧ db.claims = [1791781200 * 1000000, 1791792000 * 1000000] ∧
      db.claims.Pairwise (· < ·) ∧ nextDispatchAt ⟨fourHours, some (1791781200 * 1000000)⟩ 120 (1791781320 * 1000000) =
        1791792120 * 1000000 := by
  obtain ⟨tr, db, hrun, hinputs, hclaims⟩ := exists_run_of_inputs (CadenceDb.step defaultCadence) id
    { committed := some ⟨fiveMinutes, none⟩ } claimedTwice
    (fun (r : List (Taken (CadenceDb Nat) (CadenceMove Nat) (CadenceDb Nat)) × CadenceDb Nat) => r.2.claims)
    [1791781200 * 1000000, 1791792000 * 1000000] (by with_unfolding_all decide)
  exact ⟨tr, db, hrun, hinputs, hclaims, (cadence_slots_in_order defaultCadence hrun).1, by with_unfolding_all decide⟩

/-- A microsecond before a boundary in the year 2514 the timestamp is rounded onto it: the slot is claimed before the
announced dispatch. -/
theorem cadence_slot_early : ∃ (tr : List (Taken (CadenceDb Nat) (CadenceMove Nat) (CadenceDb Nat))) (db : CadenceDb Nat),
    let row : CadenceRow := ⟨fiveMinutes, some (17179869000 * 1000000)⟩
    let t := 17179869420 * 1000000 - 1
    Run (CadenceDb.step defaultCadence) id { committed := some row } tr db ∧ tr.map Taken.input = claimAlone 0 t ∧
      db.claims = [17179869300 * 1000000] ∧ t < nextDispatchAt row defaultCadence.settleSeconds t := by
  obtain ⟨tr, db, hrun, hinputs, hclaims⟩ := exists_run_of_inputs (CadenceDb.step defaultCadence) id
    { committed := some ⟨fiveMinutes, some (17179869000 * 1000000)⟩ } (claimAlone 0 (17179869420 * 1000000 - 1))
    (fun (r : List (Taken (CadenceDb Nat) (CadenceMove Nat) (CadenceDb Nat)) × CadenceDb Nat) => r.2.claims)
    [17179869300 * 1000000] (by with_unfolding_all decide)
  exact ⟨tr, db, hrun, hinputs, hclaims, by with_unfolding_all decide⟩

end SearchCadence

/-! ## The searches of the executors -/

section SearchExecutor

variable {ε : Type} [DecidableEq ε]

/-- When a permit is released, the search created under it was seen to end or its cancel was sent, exactly unless its
flush or a call for its status raised. While none does, no more searches run than permits are held and cancels were
sent. -/
theorem released_searches_settled (cfg : ExecutorSettings) {tr : List (ExecutorTaken ε)} {st : ExecutorState ε}
    (h : Run (ExecutorState.step cfg) id { executor := fun _ => none } tr st) :
    (∀ e ∈ tr, ∀ k, ExecutorTaken.Releases e k → (ExecutorTaken.Settles e k ↔ ¬ ExecutorTaken.Abandons e k)) ∧
      ((∀ e ∈ tr, ∀ k, ¬ ExecutorTaken.Abandons e k) → (∀ e ∈ tr, e.output.Bounded) ∧ st.Bounded) := by
  have hinv : (∀ e ∈ tr, ∀ k, ExecutorTaken.Releases e k → (ExecutorTaken.Settles e k ↔ ¬ ExecutorTaken.Abandons e k)) ∧
      ExecutorInv st := by
    refine h.invariant' (fun tr st => (∀ e ∈ tr, ∀ k, ExecutorTaken.Releases e k →
      (ExecutorTaken.Settles e k ↔ ¬ ExecutorTaken.Abandons e k)) ∧ ExecutorInv st) ⟨by simp, executorInv_initial⟩ ?_
    intro tr st move st' ⟨hreleased, hst⟩ hstep
    refine ⟨fun e he k hrelease => ?_, hst.step hstep⟩
    rcases List.mem_append.mp he with he | he
    · exact hreleased e he k hrelease
    · cases List.mem_singleton.mp he
      exact releases_settles_iff hst hstep hrelease
  refine ⟨hinv.1, fun hkept => ?_⟩
  obtain ⟨houtputs, hst⟩ := h.reached (fun st => ExecutorInv st ∧ Accounted st) (fun e => ∀ k, ¬ ExecutorTaken.Abandons e k)
    ⟨executorInv_initial, by simp [Accounted]⟩
    (fun hst hnot hstep => ⟨hst.1.step hstep, hst.2.step hst.1 hstep hnot⟩) hkept
  exact ⟨fun e he => (houtputs e he).2.bounded, hst.2.bounded⟩

def oneRetry : ExecutorSettings := ⟨1, 300⟩

def countEvents : ExecutorSearch := ⟨.ok (), 60⟩

def attempt (x : ε) : List (ExecutorMove ε) :=
  [.of x (.saved none), .of x (.permit none), .of x (.create (.ok "WAIT"))]

def timedOutAndRead : List (ExecutorMove Bool) :=
  [.of false (.execute countEvents {} true), .of true (.execute countEvents {} true)] ++ attempt false ++ attempt true ++
    [.of false (.saved none), .of true (.saved none), .of false (.status (.ok ⟨"EXECUTE", []⟩) 10),
      .of false (.status (.ok ⟨"EXECUTE", []⟩) 60), .ends 1, .of true (.status (.ok ⟨"COMPLETED", []⟩) 20),
      .of false (.cancel true), .of true (.results none)]

theorem released_searches_settled_read : ∃ (tr : List (ExecutorTaken Bool)) (st : ExecutorState Bool),
    Run (ExecutorState.step oneRetry) id { executor := fun _ => none } tr st ∧ tr.map Taken.input = timedOutAndRead ∧
      (∀ e ∈ tr, ∀ k, ExecutorTaken.Releases e k → ExecutorTaken.Settles e k) ∧ st.Bounded ∧
      st.searches = [⟨true, false, true⟩, ⟨false, true, false⟩] := by
  obtain ⟨tr, st, hrun, hinputs, hsearches⟩ := exists_run_of_inputs (ExecutorState.step oneRetry) id
    { executor := fun _ => none } timedOutAndRead
    (fun (r : List (ExecutorTaken Bool) × ExecutorState Bool) => r.2.searches)
    [⟨true, false, true⟩, ⟨false, true, false⟩] (by decide)
  have hkept : ∀ e ∈ tr, ∀ k, ¬ ExecutorTaken.Abandons e k := by
    rintro e he k ⟨x, ex, -, hraises⟩
    have hinput : e.input ∈ timedOutAndRead := hinputs ▸ List.mem_map_of_mem he
    rcases hraises with ⟨-, error, heq⟩ | ⟨-, error, elapsed, heq⟩ <;> rw [heq] at hinput <;>
      simp [timedOutAndRead, attempt] at hinput
  obtain ⟨hsettles, hbound⟩ := released_searches_settled oneRetry hrun
  exact ⟨tr, st, hrun, hinputs, (fun e he k hrelease => (hsettles e he k hrelease).mpr (hkept e he k)),
    (hbound hkept).2, hsearches⟩

def statusCallRaises : List (ExecutorMove Unit) :=
  [.of () (.execute countEvents {} true)] ++ attempt () ++
    [.of () (.saved none), .of () (.status (.error (.providerUnavailable "connection lost")) 0), .of () (.saved none)] ++
    attempt ()

def leavesFirst (e : ExecutorTaken Unit) : Bool :=
  ((e.before.executor ()).bind (fun ex => ex.phase.search)) == some 0 &&
    (e.output.executor ()).map (fun ex => ex.phase.holds) == some false &&
    decide (e.output.searches[0]? = some ({} : ArielSearch))

theorem released_search_still_running : ∃ (tr : List (ExecutorTaken Unit)) (st : ExecutorState Unit),
    Run (ExecutorState.step oneRetry) id { executor := fun _ => none } tr st ∧ tr.map Taken.input = statusCallRaises ∧
      (∃ e ∈ tr, ∃ k, ExecutorTaken.Releases e k ∧ ¬ ExecutorTaken.Settles e k) ∧ ¬ st.Bounded := by
  obtain ⟨tr, st, hrun, hinputs, hcomputed⟩ := exists_run_of_inputs (ExecutorState.step oneRetry) id
    { executor := fun _ => none } statusCallRaises
    (fun (r : List (ExecutorTaken Unit) × ExecutorState Unit) => (r.1.any leavesFirst, r.2.searches))
    (true, [{}, {}]) (by decide)
  obtain ⟨hleaves, hsearches⟩ := Prod.mk.inj hcomputed
  refine ⟨tr, st, hrun, hinputs, ?_, fun hbounded => ?_⟩
  · obtain ⟨e, he, hfirst⟩ := List.any_eq_true.mp hleaves
    simp only [leavesFirst, Bool.and_eq_true, beq_iff_eq, decide_eq_true_eq, Option.bind_eq_some_iff,
      Option.map_eq_some_iff] at hfirst
    obtain ⟨⟨⟨ex, hex, hk⟩, ex', hex', hholds⟩, hsearch⟩ := hfirst
    refine ⟨e, he, 0, ⟨(), ex, ex', hex, hk, hex', hholds⟩, ?_⟩
    rintro ⟨search, hfound, hsettled⟩
    cases hsearch.symm.trans hfound
    simp at hsettled
  · have hrunning : {k : Nat | ∃ search, st.searches[k]? = some search ∧ search.running = true} = {0, 1} := by
      ext k
      rw [hsearches]
      match k with
      | 0 | 1 => simp
      | k + 2 => simp
    have hcancelled : {k : Nat | ∃ search, st.searches[k]? = some search ∧ search.cancelSent = true} = ∅ := by
      ext k
      rw [hsearches]
      match k with
      | 0 | 1 => simp
      | k + 2 => simp
    rw [ExecutorState.Bounded, hrunning, hcancelled, Set.encard_empty, add_zero, Set.encard_pair Nat.zero_ne_one] at hbounded
    exact absurd (hbounded.trans (Set.encard_le_one_iff.mpr (fun _ _ _ _ => rfl))) (by decide)

end SearchExecutor

/-! ## The alerts of a search -/

section SearchAlerts

open Alerts

variable {φ : Type} [PyFloat φ]

/-- A run over `N` rows, cut at the row limit. Unless the threshold holds of `N`, no alert of its condition opens or is
refreshed; if it holds, none resolves. A greater-than threshold is breached as it holds of `N`, unless there is a reason
against it. -/
theorem threshold_alert_truthful {svc : Service} {s : Session φ} (hinj : Function.Injective svc.uuid4)
    (h : WellFormed svc s) (digest : Digest) (searchFailureAlertAfter : ℕ) (search : AlertedSearch)
    (execution : FinishedExecution) {t : ℚ} (ht : search.thresholdValue = some t) (N : ℕ) :
    let m := search.maxResultRows
    let finished := execution.complete search.toScheduledSearch (min N m : ℕ) (decide (m < N))
    let fingerprint := searchThresholdFingerprint digest search.id
    let reason := unreachableThresholdReason (some search.thresholdOperator) (some t) (some m)
    (∃ results s', evaluate svc digest searchFailureAlertAfter s search finished = .ok (results, s') ∧
      (search.thresholdOperator.holds N t = false →
        ∀ b ∈ s'.alerts, b.dedupKey = fingerprint → b.active → b ∈ s.alerts) ∧
      (search.thresholdOperator.holds N t = true →
        ∀ a ∈ s.alerts, a.dedupKey = fingerprint → a.active →
          ∃ b ∈ s'.alerts, b.id = a.id ∧ b.dedupKey = fingerprint ∧ b.active)) ∧
    (search.thresholdOperator = .GT ∨ search.thresholdOperator = .GE → reason = none →
      finished.thresholdBreached = search.thresholdOperator.holds N t) ∧
    (reason ≠ none → finished.thresholdBreached = false) := by
  intro m finished fingerprint reason
  refine ⟨?_, fun hop hnone => applyThreshold_eq_holds ht hop hnone, fun hsome => ?_⟩
  · obtain ⟨r₁, s₁, hthreshold, hwf, hnew, hkept⟩ :=
      evaluateThreshold_rows digest search finished hinj h
    obtain ⟨r₂, s₂, hfailure, hnew', hkept'⟩ :=
      evaluateFailure_rows digest search hwf searchFailureAlertAfter
        (show finished.status = .COMPLETED from rfl)
    refine ⟨_, s₂, by simp only [evaluate, hthreshold, hfailure, bind, Except.bind]; rfl, fun hfalse => ?_,
      fun htrue a ha hkey hact => ?_⟩
    · have hbreached : finished.thresholdBreached = false := by
        by_contra hbreached
        rw [holds_of_applyThreshold ht (Bool.not_eq_false _ ▸ hbreached)] at hfalse
        cases hfalse
      exact fun b hb hkey hact => hnew hbreached b (hnew' b hb hkey) hact
    · have hproven : finished.thresholdBreached = true ∨ finished.truncated = true := by
        rcases Nat.lt_or_ge m N with hcut | hwhole
        · exact .inr (decide_eq_true hcut)
        · exact .inl ((applyThreshold_whole ht hwhole).trans htrue)
      obtain ⟨b, hb, hid, hkey', hactive⟩ := hkept hproven a ha hact
      exact ⟨b, hkept' b hb (hkey'.trans hkey), hid, hkey'.trans hkey, hactive⟩
  · obtain ⟨reason', hreason⟩ := Option.ne_none_iff_exists'.mp hsome
    exact applyThreshold_unreachable ht hreason

def cutSearch : AlertedSearch where
  id := "search"
  severity := .high
  name := "logins"
  aqlQuery := ""
  queryVersion := 1
  scheduleCron := ""
  scheduleTimezone := "UTC"
  thresholdValue := some (7 / 2)
  thresholdOperator := .GT
  timeoutSeconds := 300
  maxResultRows := 3
  enabled := true

def blankDigest : Digest where
  toUnicodeTables := asciiTables
  sha256 _ := ""
  lower := id

theorem threshold_alert_truthful_cut :
    let input : AlertInput ℚ := { silent "search_threshold:" with evidence := none, context := none }
    let s : Session ℚ := { alerts := [newAlert input 0 (letters.uuid4 0)], issued := 1 }
    let finished := (FinishedExecution.mk "run" 1 .RUNNING none false false none none).complete
      cutSearch.toScheduledSearch 3 true
    finished.thresholdBreached = true ∧
    ∃ results s', evaluate letters blankDigest 3 s cutSearch finished = .ok (results, s') ∧
      ∀ a ∈ s.alerts, a.active → ∃ b ∈ s'.alerts, b.id = a.id ∧ b.active := by
  intro input s finished
  have hwf : WellFormed letters s := by
    refine ⟨by decide, fun n hn a ha hid => ?_, fun a ha b hb _ _ _ => ?_⟩
    · rw [List.mem_singleton.mp ha] at hid
      have hzero : 0 = n := letters_injective hid
      have hone : 1 ≤ n := hn
      omega
    · rw [List.mem_singleton.mp ha, List.mem_singleton.mp hb]
  obtain ⟨⟨results, s', hok, -, hkept⟩, hbreached, -⟩ := threshold_alert_truthful letters_injective hwf
    blankDigest 3 cutSearch (FinishedExecution.mk "run" 1 .RUNNING none false false none none) rfl 5
  have hholds : cutSearch.thresholdOperator.holds (5 : ℕ) (7 / 2) = true := by decide +kernel
  have hreach : unreachableThresholdReason (some cutSearch.thresholdOperator) (some (7 / 2))
      (some cutSearch.maxResultRows) = none := by decide +kernel
  refine ⟨(hbreached (.inl rfl) hreach).trans hholds, results, s', hok, fun a ha hact => ?_⟩
  have hkey : a.dedupKey = searchThresholdFingerprint blankDigest cutSearch.id := by
    rw [List.mem_singleton.mp ha]
    decide +kernel
  obtain ⟨b, hb, hid, -, hactive⟩ := hkept hholds a ha hkey hact
  exact ⟨b, hb, hid, hactive⟩

end SearchAlerts

/-! ## Whole runs -/

section SearchRuns

variable {φ : Type} [PyFloat φ]

/-- A run ends in a terminal status with distinct metrics exactly if its result has counts that are floats and labels
that stay distinct. A cycle of such runs goes on to its end, and a run that is none leaves the cycle. -/
theorem scheduled_run_ends_iff (cfg : ExecutorSettings) (str : Json φ → String) (capable : Bool) :
    (∀ run : ClaimedRun φ, Ends (execute cfg str capable run.search run.attempts run.row run.now) ↔
      ∀ results, Gets cfg capable run results → results.Storable str) ∧
    (∀ (maxDispatch : ℕ) (runs : List (ClaimedRun φ)),
      (∀ run ∈ runs, ∀ results, Gets cfg capable run results → results.Storable str) →
      ∃ all, runDue cfg str capable maxDispatch [] runs = .ok all) ∧
    ∀ (maxDispatch : ℕ) (run : ClaimedRun φ) (runs : List (ClaimedRun φ)) (results : ArielResults φ),
      0 < maxDispatch → Gets cfg capable run results → ¬ results.Storable str →
      ∃ e, runDue cfg str capable maxDispatch [] (run :: runs) = .error e := by
  refine ⟨execute_ends, fun maxDispatch runs h => ?_, fun maxDispatch run runs results hroom hgets hnot => ?_⟩
  · exact runDue_isOk (fun run hrun => (execute_ends run).mpr (h run hrun)) []
  · have hends : ¬ Ends (execute cfg str capable run.search run.attempts run.row run.now) :=
      fun hends => hnot ((execute_ends run).mp hends results hgets)
    obtain ⟨e, he⟩ := (execute_ends_or_error run).resolve_left hends
    exact ⟨e, runDue_cons_of_error hroom he runs⟩

def hitsSearch : RunSearch := { cutSearch.toScheduledSearch with id := "search", valid := .ok () }

def hitsResults (users : List String) : ArielResults ℚ where
  rows := users.map (fun user => [("user", .str user), ("hits", .int 1)])
  totalCount := users.length

def hitsOf (users : List String) : ClaimedRun ℚ where
  search := hitsSearch
  row := { id := "run" }
  attempts _ :=
    { create := .ok (0, "WAIT")
      status := fun _ => .ok ⟨"COMPLETED", []⟩
      elapsed := fun i => i
      advances := fun i => by omega
      results := .ok (hitsResults users)
      completedAt := 0 }
  now := 0

theorem hitsOf_reads (users : List String) :
    (runOnce oneRetry hitsSearch ((hitsOf users).attempts 0) (hitsOf users).row).2 = .ok (hitsResults users) := by
  simp [runOnce, pollUntilTerminal, fetchResults, hitsOf, hitsSearch, hitsResults, isTerminal, bind, Except.bind,
    Except.mapError]

theorem hitsOf_gets (users : List String) : Gets oneRetry true (hitsOf users) (hitsResults users) :=
  ⟨by simp [hitsOf], rfl, 0, fun j hj => absurd hj (Nat.not_lt_zero j), hitsOf_reads users⟩

theorem hitsResults_storable : (hitsResults ["alice", "bob"]).Storable (fun _ => "") where
  total _ := by
    rw [Double.Overflows, Double.round_intCast (by decide), not_le]
    exact lt_of_lt_of_le (b := (2 : ℚ) ^ 2) (by norm_num [hitsResults]) (pow_le_pow_right₀ one_le_two (by decide))
  counts row hrow item hitem hcount := by
    have hno : ∀ row ∈ (hitsResults ["alice", "bob"]).rows, ∀ item ∈ row, isCountColumn item.1 = false := by
      simp only [hitsResults, List.map_cons, List.map_nil, List.forall_mem_cons]
      refine ⟨⟨by decide, by decide, by simp⟩, ⟨by decide, by decide, by simp⟩, by simp⟩
    rw [hno row hrow item hitem] at hcount
    cases hcount
  keys := by decide

theorem scheduled_run_ends_iff_distinct :
    Ends (execute oneRetry (fun _ => "") true hitsSearch (hitsOf ["alice", "bob"]).attempts { id := "run" } 0) := by
  refine ((scheduled_run_ends_iff oneRetry (fun _ => "") true).1 (hitsOf ["alice", "bob"])).mpr ?_
  rintro results ⟨-, -, k, hreaches⟩
  rw [hreaches.first (hitsOf_reads _)]
  exact hitsResults_storable

/-- Two rows of one user. -/
theorem repeated_label_leaves_cycle :
    ¬ Ends (execute oneRetry (fun _ => "") true hitsSearch (hitsOf ["alice", "alice"]).attempts { id := "run" } 0) ∧
      ∃ e, runDue oneRetry (fun _ => "") true 20 [] [hitsOf ["alice", "alice"], hitsOf ["bob"]] = .error e := by
  have hends : ¬ Ends (execute oneRetry (fun _ => "") true (hitsOf ["alice", "alice"]).search
      (hitsOf ["alice", "alice"]).attempts (hitsOf ["alice", "alice"]).row (hitsOf ["alice", "alice"]).now) := by
    intro hends
    have hkeys := ((execute_ends (hitsOf ["alice", "alice"])).mp hends _ (hitsOf_gets _)).keys
    exact absurd hkeys (by decide)
  refine ⟨hends, ?_⟩
  obtain ⟨e, he⟩ := (execute_ends_or_error (hitsOf ["alice", "alice"])).resolve_left hends
  exact ⟨e, runDue_cons_of_error (by decide) he _⟩

end SearchRuns

/-! ## The AQL gate -/

section AqlGate

def latinAql : AqlTables where
  unicode := asciiTables
  digits := { asciiDigits with isdigit := fun c => c.isDigit || ['¹', '²', '³'].contains c }
  upper c := [c.toUpper]
  isspace_ascii _ _ := rfl
  decimal_ascii _ _ := rfl
  isdigit_ascii c hc := by
    have hnot : ['¹', '²', '³'].contains c = false := by
      rw [← Bool.not_eq_true, List.contains_iff_mem]
      intro hmem
      have : ['¹', '²', '³'].all (fun d => decide (128 ≤ d.toNat)) = true := by decide
      have := of_decide_eq_true (List.all_eq_true.mp this c hmem)
      omega
    exact (congrArg (c.isDigit || ·) hnot).trans (Bool.or_false _)

/-- Another content of the literals and comments of a query gets the same verdict. -/
theorem contents_never_judged (t : AqlTables) (limits : AqlLimits) {aql : List Char} {pieces : List AqlPiece}
    (h : List.Forall₂ AqlPiece.Replaced (lexPieces aql) pieces) :
    (validateAql t limits (pieces.flatMap AqlPiece.text)).map ValidatedAql.judged =
      (validateAql t limits aql).map ValidatedAql.judged := by
  refine validateAql_congr ?_ (lexTokens_replaced t h)
  rw [UnicodeTables.strip_eq_nil_iff, UnicodeTables.strip_eq_nil_iff, ← all_isspace_replaced t h, (lexed aql).text_eq]

def refill (body : List Char) : AqlPiece → AqlPiece
  | .code c => .code c
  | .lineComment _ => .lineComment body
  | .blockComment _ closed => .blockComment body closed
  | .literal quote _ closed => .literal quote body closed

theorem replaced_refill {body} (hline : '\n' ∉ body) (hblock : NoCommentEnd body)
    (hquotes : ∀ quote : AqlQuote, QuotesDoubled quote.char body) (pieces : List AqlPiece) :
    List.Forall₂ AqlPiece.Replaced pieces (pieces.map (refill body)) := by
  rw [List.forall₂_map_right_iff, List.forall₂_same]
  intro piece _
  cases piece with
  | code c => exact .code c
  | lineComment => exact .lineComment _ hline
  | blockComment => exact .blockComment _ _ hblock
  | literal quote => exact .literal quote _ _ (hquotes quote)

def quietQuery : List Char := "SELECT 'a''b' FROM events START 1 STOP 2 --x".toList

def loudContent : List Char := "; DROP FROM x LAST 900 DAYS /* --".toList

theorem quotesDoubled_of_not_mem {quote body} (h : quote ∉ body) : QuotesDoubled quote body := by
  induction body with
  | nil => exact .nil
  | cons c body ih =>
    rw [List.mem_cons, not_or] at h
    exact .plain (Ne.symm h.1) (ih h.2)

theorem contents_never_judged_loud :
    (validateAql latinAql {} (((lexPieces quietQuery).map (refill loudContent)).flatMap AqlPiece.text)).map
      ValidatedAql.judged = .ok ([keyword "EVENTS"], true) := by
  have hreplaced : List.Forall₂ AqlPiece.Replaced (lexPieces quietQuery)
      ((lexPieces quietQuery).map (refill loudContent)) := by
    refine replaced_refill (by decide) ?_ (fun quote => quotesDoubled_of_not_mem ?_) _
    · exact fun h => absurd h (by decide)
    · cases quote <;> decide
  rw [contents_never_judged latinAql {} hreplaced]
  with_unfolding_all decide

structure AqlBounded (t : AqlTables) (limits : AqlLimits) (tokens : List (List Char)) : Prop where
  select : (tokens.map t.upperText).head? = some (keyword "SELECT")
  single : ∀ i, tokens[i]? = some [';'] → i + 1 = tokens.length
  keywords : ∀ k ∈ bannedKeywords, k ∉ tokens.map t.upperText
  datasets : ∀ i dataset, (tokens.map t.upperText)[i]? = some (keyword "FROM") →
    (tokens.map t.upperText)[i + 1]? = some dataset → dataset ∈ allowedDatasets
  dataset : ∃ i dataset, (tokens.map t.upperText)[i]? = some (keyword "FROM") ∧
    (tokens.map t.upperText)[i + 1]? = some dataset
  window : ∃ k ∈ timeWindowTokens, k ∈ tokens.map t.upperText
  last : ∀ i number unit minutes, FirstAt (LastAt t tokens) i → tokens[i + 1]? = some number →
    (tokens[i + 2]?).map t.upperText = some unit → t.digits.isdigitText number = true →
    unitMinutes unit = some minutes → ∃ perUnit h, unitHours unit = some perUnit ∧
      spanHours (t.digits.value number) perUnit = .ok (.hours h) ∧ h ≤ limits.hours ∧
      (limits.hours < 2 ^ 40 → (t.digits.value number * minutes : Int) ≤ 60 * limits.hours)
  limit : ∀ i number, FirstAt (LimitAt t (tokens.map t.upperText)) i →
    (tokens.map t.upperText)[i + 1]? = some number → (t.digits.value number : Int) ≤ limits.rows

/-- For every accepted text: one `SELECT`, no banned keyword, allowed datasets only, a window keyword, and a first
`LAST` and a first `LIMIT` within the limits. -/
theorem accepted_query_bounded {t : AqlTables} {limits : AqlLimits} {aql : List Char} {v : ValidatedAql}
    (h : validateAql t limits aql = .ok v) : AqlBounded t limits (lexTokens t aql) := by
  obtain ⟨window, limit, hwindow, hlimit, hreasons⟩ := validateAql_ok h
  simp only [aqlReasons, List.append_eq_nil_iff] at hreasons
  obtain ⟨⟨⟨⟨⟨hsingle, hselect⟩, hkeywords⟩, hdatasets⟩, hspan⟩, hrows⟩ := hreasons
  obtain ⟨hsome, hallowed⟩ := datasetReasons_eq_nil.mp hdatasets
  obtain ⟨dataset, hdataset⟩ := List.exists_mem_of_ne_nil _ hsome
  constructor
  · by_contra hno
    rw [if_neg hno] at hselect
    cases hselect
  · refine (hasNonTrailing_eq_false (t := t) (fun token htoken => ?_)).mp ?_
    · simpa using (List.mem_filter.mp htoken).2
    · by_contra hyes
      rw [if_pos (Bool.not_eq_false _ ▸ hyes)] at hsingle
      cases hsingle
  · exact keywordReasons_eq_nil.mp hkeywords
  · intro i dataset hfrom hnext
    exact hallowed dataset (mem_extractDatasets.mpr ⟨i, hfrom, hnext⟩)
  · obtain ⟨i, hfrom, hnext⟩ := mem_extractDatasets.mp hdataset
    exact ⟨i, dataset, hfrom, hnext⟩
  · cases window with
    | none => cases hspan
    | some window => exact exists_timeWindowToken hwindow
  · intro i number unit minutes hfirst hnumber hunit hdigit hminutes
    obtain ⟨perUnit, hper, hge⟩ := unitHours_ge hminutes
    rw [timeWindow_of_clause (lastClause_eq_some_iff.mpr ⟨i, hfirst, hnumber, hunit⟩) hdigit hper] at hwindow
    obtain ⟨n, hn, hwindow⟩ := bind_ok hwindow
    obtain ⟨hours, hhours, hwindow⟩ := bind_ok hwindow
    cases hwindow
    rw [readNumber_value hn] at hhours
    have hexceeds : hours.exceeds limits.hours = false := by
      by_contra hyes
      rw [windowReasons, if_pos (Bool.not_eq_false _ ▸ hyes)] at hspan
      cases hspan
    cases hours with
    | infinite => cases hexceeds
    | hours hrs =>
      have hle : hrs ≤ limits.hours := not_lt.mp (of_decide_eq_false hexceeds)
      exact ⟨perUnit, hrs, hper, hhours, hle, span_le_of_hours hge hhours hle⟩
  · intro i number hfirst hnumber
    simp only [explicitLimit, limitClause_eq_some_iff.mpr ⟨i, hfirst, hnumber⟩] at hlimit
    obtain ⟨n, hn, hlimit⟩ := bind_ok hlimit
    cases hlimit
    rw [← readNumber_value hn]
    by_contra hover
    rw [limitReasons, if_pos (not_le.mp hover)] at hrows
    cases hrows

theorem accepted_query_bounded_quiet : AqlBounded latinAql {} (lexTokens latinAql quietQuery) := by
  obtain ⟨v, hv, -⟩ := exists_ok_of_toOption (x := validateAql latinAql {} quietQuery) (f := fun v => v.judged)
    (b := ([keyword "EVENTS"], true)) (by with_unfolding_all decide)
  exact accepted_query_bounded hv

/-- The upper-case tokens of a text, when it is accepted under the default limits of 168 hours and 10000 rows. -/
def acceptedTokens (text : String) : Option (List (List Char)) :=
  (validateAql latinAql {} text.toList).toOption.map (fun _ => (lexTokens latinAql text.toList).map latinAql.upperText)

/-- Accepted texts that are not bounded: a window keyword alone, a window of 900 days after an aggregate named `LAST`, a
second limit, and a quoted dataset. -/
theorem accepted_query_unbounded :
    acceptedTokens "SELECT x FROM events START" = some (["SELECT", "X", "FROM", "EVENTS", "START"].map keyword) ∧
    acceptedTokens "SELECT LAST(x) FROM events LAST 900 DAYS" =
      some (["SELECT", "LAST", "(", "X", ")", "FROM", "EVENTS", "LAST", "900", "DAYS"].map keyword) ∧
    acceptedTokens "SELECT x FROM events START 1 STOP 2 LIMIT 5 LIMIT 99999" = some (["SELECT", "X", "FROM", "EVENTS",
      "START", "1", "STOP", "2", "LIMIT", "5", "LIMIT", "99999"].map keyword) ∧
    acceptedTokens "SELECT x FROM \"assets\" events START 1 STOP 2" =
      some (["SELECT", "X", "FROM", "EVENTS", "START", "1", "STOP", "2"].map keyword) := by
  refine ⟨?_, ?_, ?_, ?_⟩
  · with_unfolding_all decide
  · with_unfolding_all decide
  · with_unfolding_all decide
  · with_unfolding_all decide

/-- The gate answers, with a result or with reasons, exactly on the texts whose first window clause and first limit
have numbers that convert. -/
theorem gate_answers_iff (t : AqlTables) (limits : AqlLimits) (aql : List Char) :
    Answers (validateAql t limits aql) ↔ (t.unicode.strip aql ≠ [] →
      LastConverts t (lexTokens t aql) ∧ LimitConverts t ((lexTokens t aql).map t.upperText)) := by
  by_cases hne : t.unicode.strip aql = []
  · refine ⟨fun _ hsome => absurd hne hsome, fun _ => .inr ⟨[.empty], List.cons_ne_nil _ _, ?_⟩⟩
    rw [validateAql, if_pos hne]
  · rw [answers_iff_reads hne, timeWindow_isOk_iff, explicitLimit_isOk_iff]
    exact ⟨fun h _ => h, fun h => h hne⟩

/-- A superscript is a digit for `str.isdigit` and none for `int`. -/
theorem superscript_limit_escapes : validateAql latinAql {} "SELECT x FROM events START 1 STOP 2 LIMIT ²".toList =
      .error (.escaped (.value (IntError.invalidLiteral "²").text)) ∧
    ¬ Answers (validateAql latinAql {} "SELECT x FROM events START 1 STOP 2 LIMIT ²".toList) := by
  have h : validateAql latinAql {} "SELECT x FROM events START 1 STOP 2 LIMIT ²".toList =
      .error (.escaped (.value (IntError.invalidLiteral "²").text)) := by
    with_unfolding_all decide
  exact ⟨h, h ▸ not_answers_escaped _⟩

end AqlGate

end QRadarDashboard.Services
