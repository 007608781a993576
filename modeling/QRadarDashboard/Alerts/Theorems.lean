import QRadarDashboard.Alerts.Lemmas.Dispatcher
import QRadarDashboard.Alerts.Lemmas.OneByOne
import QRadarDashboard.Alerts.Lemmas.Race

/-!
# Alerts: main results
-/

namespace QRadarDashboard.Alerts
open Lib Lib.ReadCommitted

variable {φ : Type}

/-- The bulk call and the calls in order return the same results, leave the same book, and report each creation and
resolution once. -/
theorem applyBulk_eq_applyEach {svc : Service} {s : Session φ} (hinj : Function.Injective svc.uuid4)
    (h : WellFormed svc s) (inputs : List (AlertInput φ)) (resolutions : List AlertResolution) :
    ∃ rs s₁ s₂, applyEach svc s inputs resolutions = .ok (rs, s₁) ∧
      applyBulk svc s inputs resolutions = (rs, s₂) ∧ s₂.book = s₁.book ∧
      s₂.book.ids = s.book.ids ++ reported .opened (rs.1 ++ rs.2.reduceOption) ∧
      s₂.book.resolvedIds.Perm (s.book.resolvedIds ++ reported .resolved (rs.1 ++ rs.2.reduceOption)) := by
  obtain ⟨rs, s₁, s₂, heach, -, hbulk, -, hbook⟩ := applyBulk_book hinj h inputs resolutions
  obtain ⟨hids, hresolved, hnone⟩ := openEach_reported hinj h inputs
  obtain ⟨rs', s', heach', -, -, hids', hnone', hresolved'⟩ :=
    resolveEach_reported (openEach_wellFormed hinj h inputs) resolutions
  obtain ⟨rfl, rfl⟩ := Prod.mk.inj (Except.ok.inj (heach.symm.trans heach'))
  refine ⟨((openEach svc s inputs).1, rs), s₁, s₂, ?_, hbulk, hbook, ?_, ?_⟩
  · simp only [applyEach, heach]
    rfl
  · rw [hbook, hids', hids, reported_append, hnone', List.append_nil]
  · rw [hbook, reported_append, hnone, List.nil_append, ← hresolved]
    exact hresolved'

def letters : Service := ⟨fun n => seconds n, fun n => String.ofList (List.replicate n 'a')⟩

theorem letters_injective : Function.Injective letters.uuid4 := by
  intro m n h
  simpa [letters] using congrArg String.length h

def silent (fingerprint : String) : AlertInput Unit :=
  { fingerprint, title := "silent", severity := .high, sourceType := "LOG_SOURCE", sourceId := none }

theorem applyBulk_eq_applyEach_repeated :
    let s : Session Unit := { alerts := [newAlert (silent "old") 0 (letters.uuid4 0)], issued := 1 }
    let inputs := [silent "new", silent "old", silent "new", silent "old"]
    let resolutions := [⟨"old", "engine", none⟩, ⟨"new", "engine", none⟩, ⟨"old", "engine", none⟩]
    ∃ rs s₁ s₂, applyEach letters s inputs resolutions = .ok (rs, s₁) ∧
      applyBulk letters s inputs resolutions = (rs, s₂) ∧ s₂.book = s₁.book ∧
      s₂.book.ids = s.book.ids ++ reported .opened (rs.1 ++ rs.2.reduceOption) ∧
      s₂.book.resolvedIds.Perm (s.book.resolvedIds ++ reported .resolved (rs.1 ++ rs.2.reduceOption)) := by
  refine applyBulk_eq_applyEach letters_injective ⟨by decide, ?_, ?_⟩ _ _
  · intro n hn a ha hid
    rw [List.mem_singleton.mp ha] at hid
    have hzero : 0 = n := letters_injective hid
    have hn : 1 ≤ n := hn
    omega
  · intro a ha b hb _ _ _
    rw [List.mem_singleton.mp ha, List.mem_singleton.mp hb]

/-! ## Statuses -/

section Lifecycle

variable {ρ τ : Type} [DecidableEq φ] [DecidableEq τ]

abbrev AlertSteps (τ : Type) [DecidableEq τ] (s : AlertStore φ ρ) :=
  Steps (τ := τ) (fun (_ : AlertStore φ ρ) (_ : Unit) => (none : Option Unit)) AlertRequest.enter
    (Program.statement Work.commit) s

/-- If no transaction commits a status over RESOLVED, statuses only move forward, an alert resolves and is reported
resolved once, and a condition has one active alert at most. -/
theorem alert_lifecycle {s : AlertStore φ ρ} (h₀ : s.reports = []) {tr : List (AlertTaken φ ρ τ)}
    {db : Db (AlertStore φ ρ) Unit τ (AlertProgram φ ρ (Work φ ρ))} (h : AlertSteps τ s tr db)
    (hunresolved : ∀ e ∈ tr, AlertTaken.unresolved e = true) :
    (∀ e ∈ tr, forward.rel e.before.committed e.output.committed ∧ forward.rel e.before.committed db.committed) ∧
    (∀ id, tr.countP (AlertTaken.entersResolved id) ≤ 1) ∧
    (∀ id, db.committed.reports.count (id, .resolved) ≤ 1) ∧
    ((db.committed.alerts.filter (fun a => a.active)).map (fun a => a.dedupKey)).Nodup := by
  have hstart : Lifecycle ([] : List (AlertTaken φ ρ τ)) s :=
    ⟨by simp, by simp, ⟨by simp [h₀], by simp [h₀]⟩, by simp⟩
  have hrun : Lifecycle tr db.committed := by
    refine Program.invariant (r := forward) (Q := fun s w => WorkOk s w) Lifecycle
      (fun e => AlertTaken.unresolved e = true) enter_ok ?_ hstart ?_ ?_ h hunresolved
    · exact fun hsession hok hcond => forward_commit hok (unresolved_of_step hsession hcond)
    · intro tr db db' move hlife hsame
      have hnext := hlife.snoc (e := ⟨db, move, db'⟩) (hsame ▸ forward.refl _) (hsame ▸ hlife.reported)
      exact hsame ▸ hnext
    · intro tr db db' t w hlife hsession hok hcond hcommit
      have hun := unresolved_of_step hsession hcond
      have hnext := hlife.snoc (e := ⟨db, .advance t, db'⟩) (hcommit ▸ forward_commit hok hun)
        (hcommit ▸ reported_commit hok hun hlife.reported)
      exact hcommit ▸ hnext
  refine ⟨fun e he => ⟨hrun.forward e he, hrun.later e he⟩, fun id => ?_, hrun.reported.1, db.committed.active_nodup⟩
  exact (hrun.enters id).trans (Bool.toNat_le _)

def oneAlert : AlertStore Unit Unit where
  alerts := [newAlert (silent "host") 0 "a"]
  rest := ()
  ids_nodup := by decide
  active_nodup := by decide

def acknowledgeIt : AlertRequest Unit Unit := .acknowledge letters "a" "ada"

def resolveIt : AlertRequest Unit Unit := .resolve letters "a" "bea" none

theorem alert_lifecycle_acknowledged : ∃ tr db, AlertSteps Bool oneAlert tr db ∧
    db.committed.reports = [("a", .acknowledged), ("a", .resolved)] ∧
    (∀ e ∈ tr, forward.rel e.before.committed e.output.committed ∧ forward.rel e.before.committed db.committed) ∧
    (∀ id, tr.countP (AlertTaken.entersResolved id) ≤ 1) ∧
    (∀ id, db.committed.reports.count (id, .resolved) ≤ 1) ∧
    ((db.committed.alerts.filter (fun a => a.active)).map (fun a => a.dedupKey)).Nodup := by
  obtain ⟨tr, db, h, hv⟩ := exists_run_of_replay
    (fun (db : Db (AlertStore Unit Unit) Unit Bool (AlertProgram Unit Unit (Work Unit Unit))) move =>
      db.step (fun _ _ => (none : Option Unit)) AlertRequest.enter (Program.statement Work.commit) move) (fun db => db)
    (Db.quiet oneAlert)
    [.start false acknowledgeIt, .advance false, .advance false,
      .start true (.detect letters [.resolveByFingerprint ⟨"host", "engine", none⟩]), .advance true, .advance true]
    (fun r => (r.2.committed.reports, r.1.all AlertTaken.unresolved))
    ([("a", .acknowledged), ("a", .resolved)], true) (by decide)
  simp only [Prod.mk.injEq] at hv
  obtain ⟨hreports, hunresolved⟩ := hv
  exact ⟨tr, db, h, hreports, alert_lifecycle rfl h (List.all_eq_true.mp hunresolved)⟩

/-- An operator acknowledges an alert that another one resolves meanwhile: the alert is active again. -/
theorem alert_reopened : ∃ tr db, AlertSteps Bool oneAlert tr db ∧
    (∃ e ∈ tr, ¬ forward.rel e.before.committed e.output.committed) ∧
    db.committed.alerts.map (fun a => (a.status, a.resolvedBy)) = [(.acknowledged, some "bea")] := by
  obtain ⟨tr, db, h, hv⟩ := exists_run_of_replay
    (fun (db : Db (AlertStore Unit Unit) Unit Bool (AlertProgram Unit Unit (Work Unit Unit))) move =>
      db.step (fun _ _ => (none : Option Unit)) AlertRequest.enter (Program.statement Work.commit) move) (fun db => db)
    (Db.quiet oneAlert)
    [.start false acknowledgeIt, .start true resolveIt, .advance false, .advance true, .advance true, .advance false]
    (fun r => (r.1.any (fun e => e.before.committed.resolvedIn "a" && !e.output.committed.resolvedIn "a"),
      r.2.committed.alerts.map (fun a => (a.status, a.resolvedBy))))
    (true, [(.acknowledged, some "bea")]) (by decide)
  simp only [Prod.mk.injEq] at hv
  obtain ⟨hback, hstatus⟩ := hv
  refine ⟨tr, db, h, ?_, hstatus⟩
  obtain ⟨e, he, hback⟩ := List.any_eq_true.mp hback
  rw [Bool.and_eq_true, Bool.not_eq_true'] at hback
  refine ⟨e, he, fun hforward => ?_⟩
  rw [resolvedIn_forward hforward hback.1] at hback
  cases hback.2

end Lifecycle

/-! ## The insert that loses the race -/

section Race

variable {ρ : Type} [DecidableEq φ]

/-- Both paths leave the winner with one more occurrence; the bulk path keeps what the transaction wrote before, the
other one only if that changes nothing. -/
theorem race_lost {svc : Service} {w : Work φ ρ} {data : AlertInput φ} {before won : AlertStore φ ρ} {winner : Alert φ}
    (h : Race svc w data before won winner) :
    ∃ w₁ w₂ now, (w.openOrUpdate svc data).answered [before, won, won] = some (refreshed winner.id, w₁) ∧
      (w.applyBulk svc [data] []).answered [before, won, won] = some (([refreshed winner.id], []), w₂) ∧
      (w₂.commit won).tables = ((w.tables won).1.map (recounted winner now), (w.tables won).2) ∧
      CountedOnce winner (w₁.commit won) ∧ CountedOnce winner (w₂.commit won) ∧
      ((w₁.commit won).tables = (w₂.commit won).tables ↔ w.tables won = won.tables) := by
  refine ⟨_, _, svc.clock (w.reads + 1), h.openOrUpdate, h.applyBulk, h.tables_applyBulk, ?_, ?_, ?_⟩
  · have htables : ((Race.rolledBack svc w winner).commit won).alerts =
        (Work.alerts {} won).map (recounted winner (svc.clock (w.reads + 1))) := by
      rw [Work.alerts, Mapper.view_nil]
      exact congrArg Prod.fst h.tables_openOrUpdate
    exact countedOnce_of_tables (w := {}) h.mem rfl h.active htables
  · exact countedOnce_of_tables h.mem h.other h.active (congrArg Prod.fst h.tables_applyBulk)
  · rw [h.tables_openOrUpdate, h.tables_applyBulk, Prod.mk.injEq,
      map_recounted_inj h.commits h.mem h.other]
    constructor
    · rintro ⟨halerts, hrest⟩
      exact Prod.ext halerts hrest.symm
    · intro heq
      exact ⟨congrArg Prod.fst heq, (congrArg Prod.snd heq).symm⟩

def noAlerts : AlertStore Unit (List String) where
  alerts := []
  rest := []
  ids_nodup := by decide
  active_nodup := by decide

def opened : AlertStore Unit (List String) where
  alerts := [newAlert (silent "host") 0 "z"]
  rest := []
  ids_nodup := by decide
  active_nodup := by decide

def watermarked : Work Unit (List String) := { writes := [fun rest => rest ++ ["watermark"]] }

theorem race_of_writes (writes : List (List String → List String)) :
    Race letters { writes } (silent "host") noAlerts opened (newAlert (silent "host") 0 "z") where
  noneActive a ha := by cases ha
  newId := rfl
  mem := List.mem_singleton_self _
  key := rfl
  active := rfl
  other := rfl
  commits := ⟨rfl, opened.ids_nodup, opened.active_nodup⟩

theorem race_lost_first : ∃ w₁ w₂ now, (({} : Work Unit (List String)).openOrUpdate letters (silent "host")).answered
      [noAlerts, opened, opened] = some (refreshed "z", w₁) ∧
    (({} : Work Unit (List String)).applyBulk letters [silent "host"] []).answered [noAlerts, opened, opened] =
      some (([refreshed "z"], []), w₂) ∧
    (w₂.commit opened).tables = ((Work.tables {} opened).1.map (recounted (newAlert (silent "host") 0 "z") now),
      (Work.tables {} opened).2) ∧
    CountedOnce (newAlert (silent "host") 0 "z") (w₁.commit opened) ∧
    CountedOnce (newAlert (silent "host") 0 "z") (w₂.commit opened) ∧
    ((w₁.commit opened).tables = (w₂.commit opened).tables ↔ Work.tables {} opened = opened.tables) :=
  race_lost (race_of_writes [])

/-- The watermark that the transaction wrote before is lost on the one-at-a-time path. -/
theorem race_loses_writes : Race letters watermarked (silent "host") noAlerts opened (newAlert (silent "host") 0 "z") ∧
    ∃ w₁ w₂, (watermarked.openOrUpdate letters (silent "host")).answered [noAlerts, opened, opened] =
        some (refreshed "z", w₁) ∧
      (watermarked.applyBulk letters [silent "host"] []).answered [noAlerts, opened, opened] =
        some (([refreshed "z"], []), w₂) ∧
      (w₁.commit opened).rest = [] ∧ (w₂.commit opened).rest = ["watermark"] :=
  ⟨race_of_writes _, _, _, rfl, rfl, by decide, by decide⟩

end Race

/-! ## Dispatch -/

section Dispatch

variable {τ : Type} [DecidableEq τ]

abbrev DispatchSteps (τ : Type) [DecidableEq τ] (table : Notifications) :=
  Steps (τ := τ) noRows DispatchTx.selecting dispatchNext table

/-- If no run selects a row that another one has selected and not committed, and every row attempted has a notifier, a
notification is delivered once at most, and its attempts are its sends and within its limit. -/
theorem notifications_sent_once {table : Notifications}
    (h₀ : ∀ row ∈ table.rows, row.attempts ≤ row.maxAttempts ∧ (row.waiting = true → row.attempts < row.maxAttempts))
    {tr : List (DispatchTaken τ)} {db : Db Notifications Unit τ DispatchTx} (h : DispatchSteps τ table tr db)
    (hexclusive : ∀ e ∈ tr, DispatchTaken.Exclusive e) (hnotifier : ∀ e ∈ tr, DispatchTaken.hasNotifier e = true) :
    (∀ row ∈ db.committed.rows, tr.countP (DispatchTaken.delivers row.id) ≤ 1) ∧
    (∀ row ∈ db.committed.rows, ∃ row₀ ∈ table.rows, row₀.id = row.id ∧
      ((∀ t tx, db.session t = some tx → ∀ pair ∈ tx.attempted, pair.1 ≠ row) →
        row.attempts = row₀.attempts + tr.countP (DispatchTaken.sends row.id)) ∧
      row₀.attempts + tr.countP (DispatchTaken.sends row.id) ≤ row.maxAttempts) ∧
    tr.Pairwise (fun e e' => ∀ row ∈ e.before.committed.rows, row.waiting = false →
      DispatchTaken.sends row.id e' = false) := by
  have hrun : DispatchInv table tr db := by
    refine h.invariant (DispatchInv table) DispatchTaken.Exclusive ?_
      (fun hinv hcond hstep => hinv.step (dispatchStep hstep) hcond) hexclusive
    refine ⟨⟨?_, ?_, ?_, ?_, h₀⟩, ⟨fun row hrow => ⟨row, hrow, rfl, rfl⟩, ?_, ?_⟩, by simp, List.Pairwise.nil⟩
    · exact fun hopen => by cases hopen
    · exact fun hopen => by cases hopen
    · exact fun _ hopen => by cases hopen
    · exact fun hopen => by cases hopen
    · intro row hrow row₀ hrow₀ hid _
      rw [table.row_unique hrow₀ hrow hid]
      simp
    · exact fun t tx hopen => by cases hopen
  have hsends : ∀ id, tr.countP (DispatchTaken.sends id) = tr.countP (DispatchTaken.attempts id) := by
    intro id
    exact List.countP_congr (fun e he => by rw [sends_eq_attempts (hnotifier e he)])
  refine ⟨fun row hrow => ?_, fun row hrow => ?_, ?_⟩
  · obtain ⟨row₀, hrow₀, hid, _⟩ := hrun.counts.rows row hrow
    exact (hrun.within hrow hrow₀ hid).2
  · obtain ⟨row₀, hrow₀, hid, _⟩ := hrun.counts.rows row hrow
    refine ⟨row₀, hrow₀, hid, fun hidle => ?_, ?_⟩
    · rw [hsends]
      exact (hrun.counts.idle row hrow row₀ hrow₀ hid hidle).1
    · rw [hsends]
      exact (hrun.within hrow hrow₀ hid).1
  · refine hrun.never.imp_of_mem (fun _ he' hnever row hrow hsettled => ?_)
    rw [sends_eq_attempts (hnotifier _ he')]
    exact hnever row hrow hsettled

def oneNotification : Notifications where
  rows := [{ id := "n", channel := "EMAIL" }]
  ids_nodup := by decide

def dispatchAt (now : Int) (outcome : SendOutcome) : DispatchRun where
  clock _ := now
  notifiers := ["EMAIL"]
  outcome _ := outcome
  backoffDelay _ _ := 1

def oneByOne (runs : List DispatchRun) : List (Move Unit DispatchRun) :=
  runs.flatMap (fun run => [.start () run, .advance (), .advance (), .advance ()])

theorem notifications_sent_once_retry : ∃ tr db, DispatchSteps Unit oneNotification tr db ∧
    db.committed.rows.map (fun row => (row.status, row.attempts)) = [(.sent, 2)] ∧
    (∀ row ∈ db.committed.rows, tr.countP (DispatchTaken.delivers row.id) ≤ 1) ∧
    (∀ row ∈ db.committed.rows, ∃ row₀ ∈ oneNotification.rows, row₀.id = row.id ∧
      ((∀ t tx, db.session t = some tx → ∀ pair ∈ tx.attempted, pair.1 ≠ row) →
        row.attempts = row₀.attempts + tr.countP (DispatchTaken.sends row.id)) ∧
      row₀.attempts + tr.countP (DispatchTaken.sends row.id) ≤ row.maxAttempts) ∧
    tr.Pairwise (fun e e' => ∀ row ∈ e.before.committed.rows, row.waiting = false →
      DispatchTaken.sends row.id e' = false) := by
  obtain ⟨tr, db, h, hv⟩ := exists_run_of_replay
    (fun (db : Db Notifications Unit Unit DispatchTx) move => db.step noRows DispatchTx.selecting dispatchNext move)
    (fun db => db) (Db.quiet oneNotification)
    (oneByOne [dispatchAt 0 (.failure "timeout" false), dispatchAt 10 .delivered])
    (fun r => (r.2.committed.rows.map (fun row => (row.status, row.attempts)), r.1.all DispatchTaken.hasNotifier))
    ([(.sent, 2)], true) (by decide)
  simp only [Prod.mk.injEq] at hv
  obtain ⟨hrows, hnotifier⟩ := hv
  refine ⟨tr, db, h, hrows, notifications_sent_once ?_ h ?_ (List.all_eq_true.mp hnotifier)⟩
  · intro row hrow
    rw [List.mem_singleton.mp hrow]
    decide
  · exact fun _ _ t _ _ _ u _ hut => absurd (Subsingleton.elim u t) hut

/-- Two runs select the row before either commits: it is delivered twice, and one attempt is stored. -/
theorem notification_sent_twice : ∃ tr db, DispatchSteps Bool oneNotification tr db ∧
    tr.countP (DispatchTaken.delivers "n") = 2 ∧ tr.countP (DispatchTaken.sends "n") = 2 ∧
    db.committed.rows.map (fun row => (row.id, row.status, row.attempts)) = [("n", .sent, 1)] := by
  obtain ⟨tr, db, h, hv⟩ := exists_run_of_replay
    (fun (db : Db Notifications Unit Bool DispatchTx) move => db.step noRows DispatchTx.selecting dispatchNext move)
    (fun db => db) (Db.quiet oneNotification)
    [.start false (dispatchAt 0 .delivered), .start true (dispatchAt 0 .delivered), .advance false, .advance true,
      .advance false, .advance true, .advance false, .advance true]
    (fun r => (r.1.countP (DispatchTaken.delivers "n"), r.1.countP (DispatchTaken.sends "n"),
      r.2.committed.rows.map (fun row => (row.id, row.status, row.attempts))))
    (2, 2, [("n", .sent, 1)]) (by decide)
  simp only [Prod.mk.injEq] at hv
  exact ⟨tr, db, h, hv.1, hv.2.1, hv.2.2⟩

end Dispatch

/-! ## Messages -/

section Messages
open Security

/-- A message names its alert and says what was rendered of it, but for names and values of the shape of a secret. -/
structure Names (alert : Alert φ) (transition : AlertTransition) (message : NotificationMessage φ) : Prop where
  alertId : message.alertId = .str alert.id
  fingerprint : message.fingerprint = .str alert.fingerprint
  severity : message.severity = alert.severity
  transition : message.transition = transition
  title : message.title = .str alert.title
  fields : ∃ fields, message.fields = .obj fields ∧
    ∀ k v, (k, v) ∈ renderFields alert → secretKey k = false → plain v = true → (k, v) ∈ fields

structure Carries (alert : Alert φ) (transition : AlertTransition) (message : NotificationMessage φ) : Prop where
  fingerprint : message.fingerprint = .str alert.fingerprint ↔ tokenShaped alert.fingerprint.toList = false
  severity : message.severity = alert.severity
  transition : message.transition = transition
  title : message.title = .str alert.title ↔ tokenShaped alert.title.toList = false
  fields : ∃ fields, message.fields = .obj fields ∧
    ∀ k v, (k, v) ∈ renderFields alert → secretKey k = false → plain v = true → (k, v) ∈ fields

theorem redacted_eq_iff {s} : (Json.str (redactText s) : Json φ) = .str s ↔ tokenShaped s.toList = false := by
  rw [Json.str.injEq]
  constructor
  · intro h
    rw [← h]
    unfold redactText
    split
    · exact not_tokenShaped_mask
    · rename_i hnot
      exact Bool.eq_false_iff.mpr hnot
  · exact redactText_of_not

/-- The id of an alert is a UUID, and its text a token: no stored message names its alert. The rest it keeps. -/
theorem stored_message_never_names [Zero φ] [DecidableEq φ] {settings : NotifySettings} {clock : Nat → Int}
    {routes : List Route} {table : List (QueuedNotification φ)} {alert : Alert φ} {u : Uuid} {transition : AlertTransition}
    {notif : QueuedNotification φ} (hid : alert.id = u.str)
    (h : notif ∈ enqueue settings clock routes table alert transition) :
    ∃ message, messageFromPayload notif = some message ∧ message.alertId = .str mask ∧ ¬ Names alert transition message ∧
      Carries alert transition message := by
  have hmasked : redactText alert.id = mask := redactText_of_token (by rw [hid]; exact u.tokenShaped_str)
  refine ⟨sentMessage alert transition, messageFromPayload_render (payload_of_mem_enqueue h), ?_, fun hnames => ?_, ?_⟩
  · rw [sentMessage, hmasked]
  · have hplain := redacted_eq_iff.mp hnames.alertId
    rw [hid, u.tokenShaped_str] at hplain
    cases hplain
  · exact ⟨redacted_eq_iff, rfl, rfl, redacted_eq_iff, _, rfl, fun k v hmem => mem_redactMembers hmem⟩

def silentAlert : Alert Int :=
  newAlert { fingerprint := "anomaly:3f2a9c", title := "silent", severity := .high,
             sourceType := "log_source", sourceId := none }
    0 (Uuid.str 0x3e1c7f605d0e4c7e9f7d0a6f3f6f7a11)

def silentQueued : QueuedNotification Int where
  alertId := silentAlert.id
  channel := "WEBHOOK"
  target := "soc"
  transition := .opened
  maxAttempts := 6
  nextAttemptAt := 0
  payload := redact (render silentAlert .opened)

theorem silentQueued_mem :
    silentQueued ∈ enqueue ({} : NotifySettings) (fun _ => 0) [⟨"WEBHOOK", "soc"⟩] [] silentAlert .opened :=
  List.mem_singleton.mpr rfl

theorem stored_message_never_names_webhook : ∃ message, messageFromPayload silentQueued = some message ∧
    message.alertId = .str mask ∧ ¬ Names silentAlert .opened message ∧ Carries silentAlert .opened message :=
  stored_message_never_names rfl silentQueued_mem

theorem webhook_alertId_masked :
    (messageFromPayload silentQueued).map (fun message => message.alertId) = some (.str "***redacted***") ∧
    ∀ message, messageFromPayload silentQueued = some message → ¬ Names silentAlert .opened message := by
  have hmessage : messageFromPayload silentQueued = some (sentMessage silentAlert .opened) := messageFromPayload_render rfl
  rw [hmessage]
  refine ⟨by decide, fun message h hnames => ?_⟩
  have hid := hnames.alertId
  rw [← Option.some.inj h] at hid
  revert hid
  decide

end Messages

end QRadarDashboard.Alerts
