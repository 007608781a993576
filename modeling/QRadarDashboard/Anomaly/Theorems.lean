import QRadarDashboard.Anomaly.Lemmas.Coupling
import QRadarDashboard.Anomaly.Lemmas.Pending
import QRadarDashboard.Anomaly.Lemmas.Unjudged

/-!
# Results about log source anomalies
-/

namespace QRadarDashboard.Anomaly
open Lib Alerts

/-! ## The language of the hysteresis -/

/-- An incident is live exactly when the judged buckets hold a block of `openAfter` anomalous ones with no block of
`resolveAfter` healthy ones after it; it is OPEN when they end in an anomalous one, and a CANDIDATE is such an end
without a live incident. -/
theorem hysteresis_language {openAfter resolveAfter : Nat} (hopen : 1 ≤ openAfter) (hresolve : 1 ≤ resolveAfter)
    {start : AnomalyState} (hstart : start = .normal ∨ start = .insufficientData) (verdicts : List Verdict) :
    ((hysteresisRun openAfter resolveAfter start verdicts).state = .opened ∨
        (hysteresisRun openAfter resolveAfter start verdicts).state = .recovering ↔
      Raised openAfter resolveAfter (judged verdicts)) ∧
    ((hysteresisRun openAfter resolveAfter start verdicts).state = .opened ↔
      Raised openAfter resolveAfter (judged verdicts) ∧ (judged verdicts).getLast? = some true) ∧
    ((hysteresisRun openAfter resolveAfter start verdicts).state = .candidate ↔
      ¬ Raised openAfter resolveAfter (judged verdicts) ∧ (judged verdicts).getLast? = some true) ∧
    ∀ verdicts', judged verdicts' = judged verdicts →
      ((hysteresisRun openAfter resolveAfter start verdicts').state = .opened ∨
          (hysteresisRun openAfter resolveAfter start verdicts').state = .recovering ↔
        (hysteresisRun openAfter resolveAfter start verdicts).state = .opened ∨
          (hysteresisRun openAfter resolveAfter start verdicts).state = .recovering) := by
  have hf := hysteresisRun_follows hopen hresolve hstart verdicts
  refine ⟨hf.raised, ?_, ?_, ?_⟩
  · rw [← hf.raised, ← hf.hit]
    constructor
    · exact fun h => ⟨Or.inl h, Or.inl h⟩
    · rintro ⟨hlive, hhit⟩
      rcases hhit with h | h
      · exact h
      · rw [h] at hlive
        simp at hlive
  · rw [← hf.raised, ← hf.hit]
    constructor
    · intro h
      rw [h]
      simp
    · rintro ⟨hdead, hhit⟩
      exact hhit.resolve_left (fun h => hdead (Or.inl h))
  · intro verdicts' hsame
    rw [(hysteresisRun_follows hopen hresolve hstart verdicts').raised, hf.raised, hsame]

theorem hysteresis_language_recovering :
    (hysteresisRun 2 2 .insufficientData
      [⟨.anomalous, false, by decide⟩, ⟨.unknown, true, by decide⟩, ⟨.anomalous, false, by decide⟩,
        ⟨.healthy, false, by decide⟩]).state = .recovering ∧ Raised 2 2 [true, true, false] := by
  refine ⟨by decide, ?_⟩
  exact (hysteresis_language (by decide) (by decide) (Or.inr rfl)
    [⟨.anomalous, false, by decide⟩, ⟨.unknown, true, by decide⟩, ⟨.anomalous, false, by decide⟩,
      ⟨.healthy, false, by decide⟩]).1.mp (Or.inr (by decide))

/-! ## Unjudged buckets -/

/-- An unjudged bucket has no effect exactly when its interval is not new, or its detector is not open, or the detector
records silence without alerts and its incident counts as many buckets. -/
theorem unjudged_noEffect_iff {φ : Type} [PyFloat φ] (engine : AnomalyEngine) (w : World φ) (j : Judgement φ)
    (h : Unjudged j) : (∃ w', applyHysteresis engine w j = .ok w' ∧ NoEffect j w w') ↔ Harmless engine j w := by
  by_cases hp : processed (detectorState w j.key) j.metric = true
  · exact iff_of_true ⟨w, noEffect_of_processed hp⟩ (Or.inl hp)
  by_cases hopen : (detectorState w j.key).state = .opened
  · obtain ⟨w₁, w', hok, hkeeps, halerts, hrows, hsame, hdetector⟩ := applyHysteresis_opened h hopen hp
    have hcounted : (counted j (detectorState w j.key)).consecutiveAnomalous =
        (detectorState w j.key).consecutiveAnomalous := by rw [h.counted]
    have hincidents : (∀ id, w'.anomalies.get? id = w.anomalies.get? id) ↔
        ∀ id row, (detectorState w j.key).activeAnomalyId = some id → w.anomalies.get? id = some row →
          (detectorState w j.key).consecutiveAnomalous ≤ row.consecutiveBuckets := by
      have htouch := touchAnomaly_rows_eq_iff (w := w₁) (d := counted j (detectorState w j.key)) h
      simp only [hkeeps.rows, hcounted] at htouch
      rw [hrows]
      exact htouch
    have hunalerted : w'.alerts.alerts = w.alerts.alerts ↔ recordOnly engine j.source j.evidence = true := by
      rw [hsame, halerts]
      exact refresh_alerts_eq_iff
    constructor
    · rintro ⟨w₂, hok₂, heffect⟩
      cases hok.symm.trans hok₂
      exact Or.inr (Or.inr ⟨hunalerted.mp heffect.alerts, hincidents.mp heffect.incidents⟩)
    · rintro (hproc | hclosed | ⟨hrecord, hcount⟩)
      · exact absurd hproc hp
      · exact absurd hopen hclosed
      · exact ⟨w', hok, hdetector, hincidents.mpr hcount, hunalerted.mpr hrecord⟩
  · exact iff_of_true (noEffect_of_closed h hopen hp) (Or.inr (Or.inl hopen))

def plainEngine : AnomalyEngine where
  svc := ⟨fun n => seconds n, fun n => String.ofList (List.replicate n 'a')⟩
  digest := { asciiTables with sha256 := fun text => text, lower := List.map Char.toLower }
  policyVersion := 1
  explanationEnabled := false
  enqueues := false
  policies := []
  classes := []
  outageAlertDefault := .alert

def firewall : LogSource := ⟨"source-1", "firewall", none, "HIGH", none⟩

def newYear : DateTime where
  year := 2026
  month := 1
  day := 1
  hour := 0
  minute := 0
  second := 0
  microsecond := 0
  utcoffset := some 0
  date_ok := by decide
  time_ok := by decide
  offset_ok := by decide

def unreadBucket (start : Int) : Judgement ℚ where
  source := firewall
  metric := ⟨start, 300⟩
  evidence := unknown .volumeDrop newYear newYear "bucket incomplete"
  inMaintenance := false
  openAfter := 1
  resolveAfter := 1

def dropBucket (start : Int) : Judgement ℚ :=
  { unreadBucket start with
    evidence := { unknown .volumeDrop newYear newYear "below the baseline" with
      signal := .anomalous
      severity := .high } }

/-- A bucket nothing was measured in overwrites the severity of the open alert and counts as an occurrence. -/
theorem unread_bucket_overwrites_alert :
    ∃ w w' : World ℚ, applyHysteresis plainEngine ⟨[], [], [], ⟨[], 0, 0⟩, [], {}⟩ (dropBucket (seconds 0)) = .ok w ∧
      applyHysteresis plainEngine w (unreadBucket (seconds 300)) = .ok w' ∧
      w.alerts.alerts.map (fun a => (a.severity, a.occurrenceCount)) = [(.high, 1)] ∧
      w'.alerts.alerts.map (fun a => (a.severity, a.occurrenceCount)) = [(.info, 2)] ∧
      ¬ NoEffect (unreadBucket (seconds 300)) w w' := by
  obtain ⟨r, hr, hview⟩ := exists_ok_of_toOption
    (x := do
      let w ← applyHysteresis plainEngine (⟨[], [], [], ⟨[], 0, 0⟩, [], {}⟩ : World ℚ) (dropBucket (seconds 0))
      let w' ← applyHysteresis plainEngine w (unreadBucket (seconds 300))
      return (w, w'))
    (f := fun r => (r.1.alerts.alerts.map (fun a => (a.severity, a.occurrenceCount)),
      r.2.alerts.alerts.map (fun a => (a.severity, a.occurrenceCount))))
    (b := ([(.high, 1)], [(.info, 2)])) (by decide)
  obtain ⟨w, hw, hr⟩ := bind_ok hr
  obtain ⟨w', hw', hr⟩ := bind_ok hr
  cases hr
  obtain ⟨hbefore, hafter⟩ := Prod.mk.inj hview
  refine ⟨w, w', hw, hw', hbefore, hafter, fun heffect => ?_⟩
  rw [heffect.alerts, hbefore] at hafter
  exact absurd hafter (by decide)

def silentBucket (signal : DetectorSignal) (start : Int) : Judgement ℚ :=
  { unreadBucket start with
    evidence := { unknown .noEvents newYear newYear "no event" with signal := signal } }

def recordingEngine : AnomalyEngine := { plainEngine with outageAlertDefault := .recordOnly }

theorem unjudged_noEffect_fresh :
    let fresh : World ℚ := ⟨[], [], [], ⟨[], 0, 0⟩, [], {}⟩
    (∃ w', applyHysteresis plainEngine fresh (unreadBucket (seconds 0)) = .ok w' ∧
      NoEffect (unreadBucket (seconds 0)) fresh w') ∧
    (∃ w, applyHysteresis plainEngine fresh (dropBucket (seconds 0)) = .ok w ∧
      (∃ w', applyHysteresis plainEngine w (unreadBucket (seconds 0)) = .ok w' ∧
        NoEffect (unreadBucket (seconds 0)) w w') ∧
      ¬ ∃ w', applyHysteresis plainEngine w (unreadBucket (seconds 300)) = .ok w' ∧
        NoEffect (unreadBucket (seconds 300)) w w') ∧
    ∃ w, applyHysteresis recordingEngine fresh (silentBucket .anomalous (seconds 0)) = .ok w ∧
      ∃ w', applyHysteresis recordingEngine w (silentBucket .unknown (seconds 300)) = .ok w' ∧
        NoEffect (silentBucket .unknown (seconds 300)) w w' := by
  intro fresh
  refine ⟨(unjudged_noEffect_iff plainEngine fresh (unreadBucket (seconds 0)) ⟨rfl, rfl⟩).mpr
    (Or.inr (Or.inl (by decide))), ?_, ?_⟩
  · obtain ⟨w, hw, hview⟩ := exists_ok_of_toOption (x := applyHysteresis plainEngine fresh (dropBucket (seconds 0)))
      (f := fun w => (processed (detectorState w (unreadBucket (seconds 0)).key) ⟨seconds 0, 300⟩,
        processed (detectorState w (unreadBucket (seconds 300)).key) ⟨seconds 300, 300⟩,
        (detectorState w (unreadBucket (seconds 300)).key).state))
      (b := (true, false, .opened)) (by decide)
    simp only [Prod.mk.injEq] at hview
    obtain ⟨hold, hnew, hopened⟩ := hview
    refine ⟨w, hw, (unjudged_noEffect_iff plainEngine w (unreadBucket (seconds 0)) ⟨rfl, rfl⟩).mpr (Or.inl hold), ?_⟩
    rw [unjudged_noEffect_iff plainEngine w (unreadBucket (seconds 300)) ⟨rfl, rfl⟩]
    rintro (hprocessed | hclosed | ⟨hrecord, -⟩)
    · exact absurd (hnew.symm.trans hprocessed) nofun
    · exact hclosed hopened
    · exact absurd hrecord (by decide)
  · obtain ⟨w, hw, hcounts⟩ := exists_ok_of_toOption
      (x := applyHysteresis recordingEngine fresh (silentBucket .anomalous (seconds 0)))
      (f := fun w => w.anomalies.all (fun item => decide
        ((detectorState w (silentBucket .unknown (seconds 300)).key).consecutiveAnomalous ≤ item.2.consecutiveBuckets)))
      (b := true) (by decide)
    refine ⟨w, hw, (unjudged_noEffect_iff recordingEngine w (silentBucket .unknown (seconds 300)) ⟨rfl, rfl⟩).mpr
      (Or.inr (Or.inr ⟨by decide, fun id row _ hrow => ?_⟩))⟩
    exact of_decide_eq_true (List.all_eq_true.mp hcounts _ (Dict.mem_of_get? hrow))

/-! ## One incident per detector -/

/-- Over every run from a fresh state: at most one incident of a detector is live, the detector is live exactly when one
is and then names it and shares its state, a closed incident is never written again, and an interval at or before the
last one changes nothing. -/
theorem detector_names_only_live_incident {φ : Type} [PyFloat φ] (engine : AnomalyEngine) (key : DetectorKey)
    {w₀ w : World φ} {tr : List (Taken (World φ) (Judgement φ) (World φ))} (hinj : Function.Injective engine.svc.uuid4)
    (hids : ∀ n, w₀.alerts.issued ≤ n → w₀.anomalies.get? (engine.svc.uuid4 n) = none)
    (hfresh : w₀.detectors.get? key = none) (hnone : ∀ id row, ¬ LiveRow key w₀ id row)
    (hrun : Run (applyHysteresis engine) (fun w => w) w₀ tr w) (hkey : ∀ e ∈ tr, e.input.key = key) :
    (∀ id row id' row', LiveRow key w id row → LiveRow key w id' row' → id' = id ∧ row' = row) ∧
    ((detectorState w key).state.active = true ↔ ∃ id row, LiveRow key w id row) ∧
    (∀ id row, LiveRow key w id row →
      (detectorState w key).activeAnomalyId = some id ∧ (detectorState w key).state = row.state) ∧
    ((detectorState w key).isOpen = true ↔
      (detectorState w key).state = .opened ∨ (detectorState w key).state = .recovering) ∧
    (∀ e ∈ tr, Frozen key e.before w) ∧
    (∀ j : Judgement φ, j.key = key → ∀ t, (detectorState w key).lastIntervalStart = some t →
      j.metric.bucketStart ≤ t → applyHysteresis engine w j = .ok w) := by
  have hstart : Coupled engine.svc key w₀ := by
    have hd : detectorState w₀ key = {} := by simp [detectorState, hfresh]
    refine ⟨hids, ?_, ?_, ?_, fun id row hlive => absurd hlive (hnone id row)⟩ <;> rw [hd] <;>
      simp [AnomalyState.active]
  have hinv : Coupled engine.svc key w ∧ ∀ e ∈ tr, Frozen key e.before w := by
    refine hrun.invariant (fun tr w => Coupled engine.svc key w ∧ ∀ e ∈ tr, Frozen key e.before w)
      (fun e => e.input.key = key) ⟨hstart, by simp⟩ ?_ hkey
    intro tr w j w' hI hj hok
    obtain ⟨hcoupled, hfrozen⟩ := applyHysteresis_coupled hinj hI.1 hj hok
    refine ⟨hcoupled, fun e he id row hrow hkey hclosed => ?_⟩
    rcases List.mem_append.mp he with he | he
    · exact hfrozen id row (hI.2 e he id row hrow hkey hclosed) hkey hclosed
    · cases List.mem_singleton.mp he
      exact hfrozen id row hrow hkey hclosed
  obtain ⟨h, hfrozen⟩ := hinv
  have hnamed : ∀ id row, LiveRow key w id row → (detectorState w key).state.active = true := by
    intro id row hlive
    by_contra hidle
    have hid := h.only id row hlive
    rw [h.idle (by simpa using hidle)] at hid
    cases hid
  refine ⟨?_, ?_, ?_, h.isOpen, hfrozen, ?_⟩
  · intro id row id' row' hlive hlive'
    have hid : id' = id := Option.some.inj ((h.only id' row' hlive').symm.trans (h.only id row hlive))
    subst hid
    exact ⟨rfl, Option.some.inj (hlive'.1.symm.trans hlive.1)⟩
  · constructor
    · intro hactive
      obtain ⟨id, row, _, hlive, _⟩ := h.tracked hactive
      exact ⟨id, row, hlive⟩
    · rintro ⟨id, row, hlive⟩
      exact hnamed id row hlive
  · intro id row hlive
    obtain ⟨id', row', hid', hlive', hstate, _⟩ := h.tracked (hnamed id row hlive)
    have hid := h.only id row hlive
    cases hid.symm.trans hid'
    cases hlive.1.symm.trans hlive'.1
    exact ⟨hid, hstate.symm⟩
  · intro j hj t ht hle
    apply applyHysteresis_processed
    rw [hj, processed, ht]
    simpa using hle

theorem detector_names_only_live_incident_opened :
    ∃ (tr : List (Taken (World ℚ) (Judgement ℚ) (World ℚ))) (w : World ℚ) (id : String),
      Run (applyHysteresis plainEngine) (fun w => w) ⟨[], [], [], ⟨[], 0, 0⟩, [], {}⟩ tr w ∧ tr.length = 2 ∧
      ∃ row, LiveRow (firewall.id, .volumeDrop) w id row ∧ row.state = .opened := by
  obtain ⟨tr, w, hrun, hview⟩ := exists_run_of_replay (applyHysteresis plainEngine) (fun w => w)
    (⟨[], [], [], ⟨[], 0, 0⟩, [], {}⟩ : World ℚ) [dropBucket (seconds 0), unreadBucket (seconds 300)]
    (fun r : List (Taken (World ℚ) (Judgement ℚ) (World ℚ)) × World ℚ =>
      (r.1.map (fun e => e.input.key), (detectorState r.2 (firewall.id, .volumeDrop)).state))
    ([(firewall.id, .volumeDrop), (firewall.id, .volumeDrop)], .opened) (by decide)
  obtain ⟨hkeys, hstate⟩ := Prod.mk.inj hview
  have hinj : Function.Injective plainEngine.svc.uuid4 := by
    intro m n h
    simpa [plainEngine] using congrArg List.length (congrArg String.toList h)
  have hkey : ∀ e ∈ tr, e.input.key = (firewall.id, .volumeDrop) := by
    intro e he
    have hmem : e.input.key ∈ tr.map (fun e => e.input.key) := List.mem_map_of_mem he
    rw [hkeys] at hmem
    simpa using hmem
  obtain ⟨_, hlive, hnames, _⟩ := detector_names_only_live_incident plainEngine (firewall.id, .volumeDrop) hinj
    (fun _ _ => rfl) rfl (fun id row h => by cases h.1) hrun hkey
  obtain ⟨id, row, hrow⟩ := hlive.mp (by rw [hstate]; rfl)
  have hlength := congrArg List.length hkeys
  exact ⟨tr, w, id, hrun, by simpa using hlength, row, hrow, (hnames id row hrow).2.symm.trans hstate⟩

/-! ## Pending buckets -/

/-- The watermark never moves back and only past buckets that were judged or given up, and no bucket is evaluated beyond
the limit. `maxBucketAttempts` ticks that each find a pending bucket move it, unless a failing bucket replaces a failing
one before there is a watermark. -/
theorem pending_run_advances {ω : Type} (settings : PendingSettings) {source : MonitoredSource}
    (hmon : source.monitoringEnabled) {st₀ st : PendingStore ω} (h₀ : st₀.attempted = []) {tr : List (PendingStep ω)}
    (hrun : Run (pendingTick settings source) Prod.snd st₀ tr st) (horderly : ∀ e ∈ tr, Orderly source e) :
    (∀ e ∈ tr, MovesOverPassed source e.before e.output.2) ∧
    (∀ bucket, tries st (source.id, bucket) ≤ settings.maxBucketAttempts) ∧
    ∀ pre window post, tr = pre ++ window ++ post → window.length = settings.maxBucketAttempts →
      (∀ e ∈ window, Found source e ∧ Steady settings source e) →
      ∃ e ∈ window, Advances source e.before e.output.2 := by
  refine ⟨?_, ?_, ?_⟩
  · intro e he
    exact (pendingTick_evaluated hmon (horderly e he) (hrun.taken e he)).moved
  · have hbounded : Bounded settings.maxBucketAttempts source st := by
      refine (hrun.reached (Bounded settings.maxBucketAttempts source) (Orderly source) ?_ ?_ horderly).2
      · intro bucket
        simp [tries, h₀]
      · intro s i o hb he hs
        exact (pendingTick_evaluated hmon he hs).bounded hb
    exact fun bucket => (hbounded bucket).1
  · intro pre window post htr hlength hwindow
    subst htr
    by_contra hnone
    obtain ⟨_, hpre, _⟩ := hrun.split
    obtain ⟨s₁, _, hmid⟩ := hpre.split
    have hstuck := stuck_run hmon hmid (fun e he => ⟨horderly e (by simp [he]), (hwindow e he).1, (hwindow e he).2,
      fun hadv => hnone ⟨e, he, hadv⟩⟩)
    rw [hlength] at hstuck
    obtain ⟨x, _, hle, hlt⟩ := hstuck settings.attempts_range.1
    omega

def threeAttempts : PendingSettings := ⟨3, 120, by decide, by decide⟩

def monitoredFirewall : MonitoredSource := { firewall with monitoringEnabled := true }

def emptyPending : PendingStore Unit where
  metrics := ⟨[], List.nodup_nil⟩
  watermarks := []
  faults := []
  world := ()

def raisingTick (arrivals : List Int) : PendingTick Unit where
  arrivals := arrivals.map (fun bucket => (seconds bucket, ⟨300, none⟩))
  newInstance := true
  clock := fun n => n
  evaluateInterval := fun _ _ => .error "ValueError"
  recordable := fun _ => true

def orderlyFound (source : MonitoredSource) (e : PendingStep Unit) : Bool :=
  e.input.arrivals.all (fun row => row.2.isLive) && decide (e.input.arrivals.Pairwise (fun a b => a.1 < b.1)) &&
    (e.before.metrics.live source.id).all (fun metric =>
      e.input.arrivals.all (fun row => metric.bucketStart < row.1)) &&
    !(pendingBuckets source (e.before.arrived source e.input)).isEmpty

theorem orderly_of_orderlyFound {source e} (h : orderlyFound source e)
    (hrec : ∀ metric, e.input.recordable metric) : Orderly source e ∧ Found source e := by
  simp only [orderlyFound, Bool.and_eq_true, List.all_eq_true, decide_eq_true_eq, Bool.not_eq_true',
    List.isEmpty_eq_false_iff] at h
  exact ⟨⟨h.1.1.1, h.1.1.2, h.1.2, hrec⟩, h.2⟩

theorem recordable_of_raisingTicks {ticks : List (List Int)} {tr : List (PendingStep Unit)}
    (h : tr.map Taken.input = ticks.map raisingTick) {e} (he : e ∈ tr) :
    ∀ metric, e.input.recordable metric := by
  have hmem : e.input ∈ ticks.map raisingTick := h ▸ List.mem_map_of_mem he
  obtain ⟨arrivals, _, hinput⟩ := List.mem_map.mp hmem
  rw [← hinput]
  exact fun _ => rfl

theorem pending_run_advances_given_up :
    ∃ (tr : List (PendingStep Unit)) (st : PendingStore Unit),
      Run (pendingTick threeAttempts monitoredFirewall) Prod.snd emptyPending tr st ∧
      tr.map Taken.input = [[0], [], []].map raisingTick ∧
      ∃ e ∈ tr, Advances monitoredFirewall e.before e.output.2 := by
  obtain ⟨tr, st, hrun, hinputs, hall⟩ := exists_run_of_all (pendingTick threeAttempts monitoredFirewall) Prod.snd
    emptyPending ([[0], [], []].map raisingTick)
    (fun e : PendingStep Unit => orderlyFound monitoredFirewall e &&
      (e.input.arrivals.isEmpty || (e.before.metrics.latestLive monitoredFirewall.id).isNone)) (by decide)
  have horderly : ∀ e ∈ tr, Orderly monitoredFirewall e ∧ Found monitoredFirewall e := by
    intro e he
    exact orderly_of_orderlyFound (Bool.and_eq_true _ _ ▸ hall e he).1 (recordable_of_raisingTicks hinputs he)
  have hsteady : ∀ e ∈ tr, Steady threeAttempts monitoredFirewall e := by
    intro e he _ _ x hx _
    have h := (Bool.and_eq_true _ _ ▸ hall e he).2
    simp only [hx, Option.isNone_some, Bool.or_false, List.isEmpty_iff] at h
    exact Or.inl h
  have hlength : tr.length = 3 := by simpa using congrArg List.length hinputs
  obtain ⟨_, _, hadvances⟩ := pending_run_advances threeAttempts rfl rfl hrun (fun e he => (horderly e he).1)
  exact ⟨tr, st, hrun, hinputs, hadvances [] tr [] (by simp) hlength (fun e he => ⟨(horderly e he).2, hsteady e he⟩)⟩

/-- A new bucket before every tick: each fails once, none is given up, and no watermark is ever created. -/
theorem newer_bucket_restarts_attempts :
    ∃ (tr : List (PendingStep Unit)) (st : PendingStore Unit),
      Run (pendingTick threeAttempts monitoredFirewall) Prod.snd emptyPending tr st ∧
      tr.length = threeAttempts.maxBucketAttempts ∧
      (∀ e ∈ tr, Orderly monitoredFirewall e ∧ Found monitoredFirewall e) ∧
      ∀ e ∈ tr, ¬ Advances monitoredFirewall e.before e.output.2 := by
  obtain ⟨tr, st, hrun, hinputs, hall⟩ := exists_run_of_all (pendingTick threeAttempts monitoredFirewall) Prod.snd
    emptyPending ([[0], [300], [600]].map raisingTick)
    (fun e : PendingStep Unit => orderlyFound monitoredFirewall e &&
      (e.output.2.through monitoredFirewall.id).isNone) (by decide)
  refine ⟨tr, st, hrun, ?_, ?_, ?_⟩
  · have hlength : tr.length = 3 := by simpa using congrArg List.length hinputs
    exact hlength
  · intro e he
    exact orderly_of_orderlyFound (Bool.and_eq_true _ _ ▸ hall e he).1 (recordable_of_raisingTicks hinputs he)
  · rintro e he ⟨m, hm, _⟩
    have h := (Bool.and_eq_true _ _ ▸ hall e he).2
    simp [hm] at h

end QRadarDashboard.Anomaly
