import QRadarDashboard.Ips.Inputs
import QRadarDashboard.Lib.Run

/-!
# When an entity's absent row is a zero
-/

namespace QRadarDashboard.Ips
open Lib Waf History

variable {φ : Type} {text : IpsText}

/-! ## The events of a key -/

def rowEntityKey (text : IpsText) (dimension : IpsDimension) (row : IpsKeyedRow) : Option String :=
  match entityKey text dimension row with
  | .ok (some keyed) => some keyed.1
  | .ok none => none
  | .error _ => none

def entityEvents (text : IpsText) (dimension : IpsDimension) (key : String) (rows : List IpsKeyedRow) : Nat :=
  ((rows.filter (fun row => rowEntityKey text dimension row = some key)).map (fun row => row.events)).sum

theorem addEntityRow_events {dimension acc acc' row}
    (h : addEntityRow text dimension acc row = .ok acc') (key : String) :
    (acc'.events.get? key).getD 0 =
      (acc.events.get? key).getD 0 + if rowEntityKey text dimension row = some key then row.events else 0 := by
  obtain ⟨keyed, hkeyed, h⟩ := bind_ok h
  cases keyed with
  | none =>
    cases h
    simp [rowEntityKey, hkeyed]
  | some keyed =>
    cases h
    simp only [rowEntityKey, hkeyed, Dict.get?_set, Option.some.injEq]
    by_cases hk : key = keyed.1
    · simp [hk]
    · simp [hk, Ne.symm hk]

theorem foldlM_addEntityRow {dimension rows acc acc'}
    (h : rows.foldlM (addEntityRow text dimension) acc = .ok acc') (key : String) :
    (acc'.events.get? key).getD 0 = (acc.events.get? key).getD 0 + entityEvents text dimension key rows := by
  induction rows generalizing acc with
  | nil =>
    cases h
    rfl
  | cons row rows ih =>
    rw [List.foldlM_cons] at h
    obtain ⟨acc₁, hrow, h⟩ := bind_ok h
    rw [ih h, addEntityRow_events hrow key, Nat.add_assoc]
    by_cases hkey : rowEntityKey text dimension row = some key
    · simp [entityEvents, hkey]
    · simp [entityEvents, hkey]

theorem nodup_addEntityRow {dimension} {rows : List IpsKeyedRow} {acc acc'}
    (h : rows.foldlM (addEntityRow text dimension) acc = .ok acc') (hacc : acc.events.keys.Nodup) :
    acc'.events.keys.Nodup := by
  induction rows generalizing acc with
  | nil =>
    cases h
    exact hacc
  | cons row rows ih =>
    rw [List.foldlM_cons] at h
    obtain ⟨acc₁, hrow, h⟩ := bind_ok h
    refine ih h ?_
    obtain ⟨keyed, _, hrow⟩ := bind_ok hrow
    cases keyed with
    | none =>
      cases hrow
      exact hacc
    | some keyed =>
      cases hrow
      exact Dict.nodup_keys_set hacc _ _

theorem events_eq_zero {dimension key rows} (h : entityEvents text dimension key rows = 0) :
    ∀ row ∈ rows, rowEntityKey text dimension row = some key → row.events = 0 := by
  intro row hrow hkey
  have hmem : row.events ∈
      (rows.filter (fun row => rowEntityKey text dimension row = some key)).map (fun row => row.events) :=
    List.mem_map.mpr ⟨row, List.mem_filter.mpr ⟨hrow, decide_eq_true hkey⟩, rfl⟩
  exact List.sum_eq_zero_iff_forall_eq_nat.mp h _ hmem

theorem foldEntityDimension_ok {outcome maxEntities fact}
    (h : foldEntityDimension text outcome maxEntities = .ok (some fact)) :
    ∃ sums, outcome.rows.foldlM (addEntityRow text outcome.dimension) ⟨[], [], 0, 0⟩ = .ok sums ∧
      fact.entities = ((ranked sums.events).take maxEntities.toNat).map (entityFact sums.names) ∧
      fact.entityCount = (ranked sums.events).length := by
  obtain ⟨_, _, h⟩ := bind_ok h
  cases hm : measurementOf outcome with
  | none =>
    simp only [hm] at h
    cases h
  | some measurement =>
    simp only [hm] at h
    obtain ⟨_, _, h⟩ := bind_ok h
    obtain ⟨sums, hsums, h⟩ := bind_ok h
    cases h
    exact ⟨sums, hsums, rfl, rfl⟩

theorem entity_of_events {outcome maxEntities fact} (h : foldEntityDimension text outcome maxEntities = .ok (some fact))
    {key} (hpos : 0 < entityEvents text outcome.dimension key outcome.rows) :
    fact.entities.length < fact.entityCount ∨ ∃ entity ∈ fact.entities, entity.valueKey = key ∧
      entity.events = entityEvents text outcome.dimension key outcome.rows := by
  obtain ⟨sums, hsums, hentities, hcount⟩ := foldEntityDimension_ok h
  rw [hentities, hcount]
  have hget := foldlM_addEntityRow hsums key
  simp only [Dict.get?_nil, Option.getD_none, Nat.zero_add] at hget
  have hsome : sums.events.get? key = some (entityEvents text outcome.dimension key outcome.rows) := by
    cases hg : sums.events.get? key with
    | none =>
      rw [hg, Option.getD_none] at hget
      omega
    | some n =>
      rw [hg, Option.getD_some] at hget
      rw [hget]
  have hmem : (key, entityEvents text outcome.dimension key outcome.rows) ∈ ranked sums.events :=
    mem_sortOn.mpr (Dict.mem_of_get? hsome)
  rw [← List.take_append_drop maxEntities.toNat (ranked sums.events), List.mem_append] at hmem
  rcases hmem with hmem | hmem
  · exact Or.inr ⟨_, List.mem_map.mpr ⟨_, hmem, rfl⟩, rfl, rfl⟩
  · refine Or.inl ?_
    have hdrop := List.length_pos_of_mem hmem
    simp only [List.length_map, List.length_take, List.length_drop] at hdrop ⊢
    omega

theorem events_of_entity {outcome : IpsCellOutcome} {maxEntities fact}
    (h : foldEntityDimension text outcome maxEntities = .ok (some fact)) {entity}
    (he : entity ∈ fact.entities) :
    entity.events = entityEvents text outcome.dimension entity.valueKey outcome.rows := by
  obtain ⟨sums, hsums, hentities, -⟩ := foldEntityDimension_ok h
  rw [hentities] at he
  obtain ⟨item, hitem, rfl⟩ := List.mem_map.mp he
  have hmem : item ∈ sums.events := mem_sortOn.mp (List.mem_of_mem_take hitem)
  have hget := (Dict.get?_eq_some_iff (nodup_addEntityRow hsums (by simp [Dict.keys]))).mpr hmem
  have hsum := foldlM_addEntityRow hsums item.1
  rw [hget] at hsum
  simpa [entityFact] using hsum

/-! ## What the notes of a bucket change -/

variable {a : IpsHistoryArgs} {start : Int}

structure LedgerOk (ledger : IpsLedger) : Prop where
  nodup : ledger.keys.Nodup
  named : ∀ item ∈ ledger, item.2.key = item.1

theorem LedgerOk.set {ledger} (h : LedgerOk ledger) {key entity}
    (hkey : entity.key = key) : LedgerOk (ledger.set key entity) := by
  have hnodup := Dict.nodup_keys_set h.nodup key entity
  refine ⟨hnodup, fun item hitem => ?_⟩
  have hget := (Dict.get?_eq_some_iff hnodup (k := item.1) (v := item.2)).mpr hitem
  rw [Dict.get?_set] at hget
  split at hget
  · cases hget
    rename_i heq
    rw [heq, hkey]
  · exact h.named item (Dict.mem_of_get? hget)

theorem LedgerOk.key_of_get? {ledger} (h : LedgerOk ledger) {key entity} (hget : ledger.get? key = some entity) :
    entity.key = key :=
  h.named _ (Dict.mem_of_get? hget)

def HasMetric (metrics : List IpsMetricRow) (key : EntityKey) : Prop := ∃ m ∈ metrics, m.entity = key

/-- The ledger after: an entity of the one before with the same first admission, or one admitted here with its metric
row. -/
def Admitted (start : Int) (before after : IpsLedger) (metrics : List IpsMetricRow) : Prop :=
  ∀ key entity, after.get? key = some entity →
    (∃ old, before.get? key = some old ∧ old.firstSeenAt = entity.firstSeenAt) ∨
      (before.get? key = none ∧ entity.firstSeenAt = start ∧ HasMetric metrics key)

structure Grows (start : Int) (Q : IpsMetricRow → Prop) (st st' : IpsFoldState) : Prop where
  ok : LedgerOk st.ledger → LedgerOk st'.ledger
  kept : ∀ key, st'.ledger.get? key = none → st.ledger.get? key = none
  admitted : Admitted start st.ledger st'.ledger st'.metrics
  metrics : ∀ m ∈ st.metrics, m ∈ st'.metrics
  added : ∀ m ∈ st'.metrics, m ∈ st.metrics ∨ Q m

variable {Q : IpsMetricRow → Prop}

theorem Grows.refl (st : IpsFoldState) : Grows start Q st st where
  ok h := h
  kept _ h := h
  admitted _ entity h := Or.inl ⟨entity, h, rfl⟩
  metrics _ h := h
  added _ h := Or.inl h

theorem Grows.trans {st st₁ st₂} (h₁ : Grows start Q st st₁) (h₂ : Grows start Q st₁ st₂) : Grows start Q st st₂  where
  ok h := h₂.ok (h₁.ok h)
  kept key h := h₁.kept key (h₂.kept key h)
  admitted := by
    intro key entity hget
    rcases h₂.admitted key entity hget with ⟨mid, hmid, hfirst⟩ | ⟨hnone, hfirst, hmetric⟩
    · rcases h₁.admitted key mid hmid with ⟨old, hold, hsame⟩ | ⟨hnone, hstart, m, hm, hkey⟩
      · exact Or.inl ⟨old, hold, hsame.trans hfirst⟩
      · exact Or.inr ⟨hnone, hfirst.symm.trans hstart, m, h₂.metrics m hm, hkey⟩
    · exact Or.inr ⟨h₁.kept key hnone, hfirst, hmetric⟩
  metrics m hm := h₂.metrics m (h₁.metrics m hm)
  added := by
    intro m hm
    rcases h₂.added m hm with hm | hm
    · exact h₁.added m hm
    · exact Or.inr hm

theorem grows_foldl {β : Type} {f : IpsFoldState → β → IpsFoldState} {l : List β}
    (h : ∀ st, ∀ b ∈ l, Grows start Q st (f st b)) (st : IpsFoldState) : Grows start Q st (l.foldl f st) := by
  induction l generalizing st with
  | nil => exact Grows.refl st
  | cons b l ih =>
    exact (h st b List.mem_cons_self).trans (ih (fun st b' hb' => h st b' (List.mem_cons_of_mem b hb')) _)

theorem grows_write {st row entity changed} (hQ : Q row) (hold : ∀ old, st.ledger.get? row.entity = some old →
      old.firstSeenAt = entity.firstSeenAt ∧ (old.key = row.entity → entity.key = row.entity))
    (hnew : st.ledger.get? row.entity = none → entity.firstSeenAt = start ∧ entity.key = row.entity) :
    Grows start Q st { st with
      ledger := st.ledger.set row.entity entity
      metrics := st.metrics ++ [row]
      changed := changed }  where
  ok h := by
    refine h.set ?_
    cases hget : st.ledger.get? row.entity with
    | none => exact (hnew hget).2
    | some old => exact (hold old hget).2 (h.key_of_get? hget)
  kept key h := by
    rw [Dict.get?_set] at h
    split at h
    · cases h
    · exact h
  admitted := by
    intro key entity' hget
    rw [Dict.get?_set] at hget
    split at hget
    · rename_i hkey
      cases hget
      rw [hkey]
      cases hget : st.ledger.get? row.entity with
      | none => exact Or.inr ⟨rfl, (hnew hget).1, row, by simp, rfl⟩
      | some old => exact Or.inl ⟨old, rfl, (hold old hget).1⟩
    · exact Or.inl ⟨entity', hget, rfl⟩
  metrics m hm := List.mem_append_left _ hm
  added m hm := by
    rcases List.mem_append.mp hm with hm | hm
    · exact Or.inl hm
    · rw [List.mem_singleton.mp hm]
      exact Or.inr hQ

theorem grows_noteTracked {d fact} (hQ : Q ⟨(d, fact.valueKey), start, a.bucketSeconds, fact.events⟩)
    (st : IpsFoldState) : Grows start Q st (noteTracked a start d st fact) := by
  unfold noteTracked
  cases hget : st.ledger.get? (d, fact.valueKey) with
  | none => exact Grows.refl st
  | some current =>
    refine grows_write hQ (fun old hold => ?_) (fun hnone => ?_)
    · cases hget.symm.trans hold
      exact ⟨rfl, fun h => h⟩
    · cases hget.symm.trans hnone

theorem grows_noteAdmitted {d fact} (hQ : Q ⟨(d, fact.valueKey), start, a.bucketSeconds, fact.events⟩)
    (st : IpsFoldState) : Grows start Q st (noteAdmitted a start d st fact) := by
  refine grows_write hQ (fun old hold => ?_) (fun hnone => ?_)
  · rw [hold]
    exact ⟨rfl, fun h => h⟩
  · rw [hnone]
    exact ⟨rfl, rfl⟩

theorem grows_admitDimension {d active} {fact : IpsEntityBucketFact}
    (hQ : ∀ e ∈ fact.entities, Q ⟨(d, e.valueKey), start, a.bucketSeconds, e.events⟩) (st : IpsFoldState) :
    Grows start Q st (admitDimension a start active d fact st) := by
  have htracked := grows_foldl (f := noteTracked a start d)
    (fun st e he => grows_noteTracked (hQ e (List.mem_of_mem_filter he)) st) st
    (l := fact.entities.filter (isActive st.ledger d))
  have hadmitted := grows_foldl (f := noteAdmitted a start d)
    (fun st e he => grows_noteAdmitted (hQ e (List.mem_of_mem_filter (mem_unseen_of_admitted he))) st)
    ((fact.entities.filter (isActive st.ledger d)).foldl (noteTracked a start d) st)
    (l := (decideAdmission (candidateOf d)
      (fact.entities.filter (fun entity => !isActive st.ledger d entity)) active a.policy).admitted)
  have h := htracked.trans hadmitted
  exact ⟨h.ok, h.kept, h.admitted, h.metrics, h.added⟩

/-! ## One dimension of a bucket -/

structure Frame (d : IpsDimension) (st st' : IpsFoldState) : Prop where
  ledger : ∀ k, st'.ledger.get? (d, k) = st.ledger.get? (d, k)
  admission : st'.admission.get? d = st.admission.get? d

theorem Frame.refl (d : IpsDimension) (st : IpsFoldState) : Frame d st st := ⟨fun _ => rfl, rfl⟩

theorem Frame.trans {d st st₁ st₂} (h₁ : Frame d st st₁) (h₂ : Frame d st₁ st₂) : Frame d st st₂ :=
  ⟨fun k => (h₂.ledger k).trans (h₁.ledger k), h₂.admission.trans h₁.admission⟩

theorem frame_foldl {β : Type} {d} {f : IpsFoldState → β → IpsFoldState} {l : List β}
    (h : ∀ st, ∀ b ∈ l, Frame d st (f st b)) (st : IpsFoldState) : Frame d st (l.foldl f st) := by
  induction l generalizing st with
  | nil => exact Frame.refl d st
  | cons b l ih =>
    exact (h st b List.mem_cons_self).trans (ih (fun st b' hb' => h st b' (List.mem_cons_of_mem b hb')) _)

theorem frame_noteTracked {d d'} (hne : d ≠ d') (st : IpsFoldState) (fact : IpsEntityFact) :
    Frame d st (noteTracked a start d' st fact) := by
  unfold noteTracked
  cases st.ledger.get? (d', fact.valueKey) with
  | none => exact Frame.refl d st
  | some current =>
    refine ⟨fun k => ?_, rfl⟩
    rw [Dict.get?_set, if_neg (fun h => hne (congrArg Prod.fst h))]

theorem frame_noteAdmitted {d d'} (hne : d ≠ d') (st : IpsFoldState) (fact : IpsEntityFact) :
    Frame d st (noteAdmitted a start d' st fact) := by
  refine ⟨fun k => ?_, rfl⟩
  unfold noteAdmitted
  rw [Dict.get?_set, if_neg (fun h => hne (congrArg Prod.fst h))]

theorem frame_admitDimension {d d'} (hne : d ≠ d') (active : Int) (fact : IpsEntityBucketFact)
    (st : IpsFoldState) : Frame d st (admitDimension a start active d' fact st) := by
  have htracked := frame_foldl (f := noteTracked a start d') (fun st b _ => frame_noteTracked hne st b) st
    (l := fact.entities.filter (isActive st.ledger d'))
  have hadmitted := frame_foldl (f := noteAdmitted a start d') (fun st b _ => frame_noteAdmitted hne st b)
    ((fact.entities.filter (isActive st.ledger d')).foldl (noteTracked a start d') st)
    (l := (decideAdmission (candidateOf d')
      (fact.entities.filter (fun entity => !isActive st.ledger d' entity)) active a.policy).admitted)
  refine ⟨(htracked.trans hadmitted).ledger, ?_⟩
  simp only [admitDimension]
  rw [Dict.get?_set, if_neg hne]
  exact (htracked.trans hadmitted).admission

theorem frame_foldDimension {d d'} (hne : d ≠ d') (facts : Dict IpsDimension (Option IpsFact))
    (counts : IpsDimension → Int) (st : IpsFoldState) : Frame d st (foldDimension a start facts counts st d') := by
  unfold foldDimension
  split
  · exact frame_admitDimension hne _ _ st
  · exact Frame.refl d st

theorem hasMetric_foldl {β : Type} {f : IpsFoldState → β → IpsFoldState} {C : IpsFoldState → Prop}
    {key b} (hmono : ∀ st b, ∀ m ∈ st.metrics, m ∈ (f st b).metrics)
    (hC : ∀ st b, C st → C (f st b)) (hit : ∀ st, C st → HasMetric (f st b).metrics key) {l : List β}
    (hb : b ∈ l) {st} (h : C st) : HasMetric (l.foldl f st).metrics key := by
  induction l generalizing st with
  | nil => cases hb
  | cons c l ih =>
    rcases List.mem_cons.mp hb with rfl | hb
    · obtain ⟨m, hm, hkey⟩ := hit st h
      refine ⟨m, ?_, hkey⟩
      clear ih hb h
      rw [List.foldl_cons]
      generalize f st b = st' at hm
      induction l generalizing st' with
      | nil => exact hm
      | cons c l ih => exact ih _ (hmono _ c m hm)
    · exact ih hb (hC st c h)

theorem admitDimension_notes {d active} {fact : IpsEntityBucketFact} {e}
    (he : e ∈ fact.entities) (st : IpsFoldState) :
    HasMetric (admitDimension a start active d fact st).metrics (d, e.valueKey) ∨
      ((admitDimension a start active d fact st).admission.get? d).map (fun c => c.admissionTruncated) = some true ∨
      (isActive st.ledger d e = false ∧ (e.events : Int) < a.policy.minRequests) := by
  have hany : ∀ st e, Grows start (fun _ => True) st (noteTracked a start d st e) := fun st e =>
    grows_noteTracked trivial st
  have hany' : ∀ st e, Grows start (fun _ => True) st (noteAdmitted a start d st e) := fun st e =>
    grows_noteAdmitted trivial st
  cases hactive : isActive st.ledger d e with
  | true =>
    refine Or.inl ?_
    have hsome : st.ledger.get? (d, e.valueKey) ≠ none := by
      intro hnone
      simp [isActive, hnone] at hactive
    obtain ⟨m, hm, hkey⟩ : HasMetric ((fact.entities.filter (isActive st.ledger d)).foldl
        (noteTracked a start d) st).metrics (d, e.valueKey) := hasMetric_foldl
      (C := fun st => st.ledger.get? (d, e.valueKey) ≠ none) (b := e) (fun st b => (hany st b).metrics)
      (fun st b h hnone => h ((hany st b).kept _ hnone))
      (fun st hget => by
        obtain ⟨current, hcurrent⟩ := Option.ne_none_iff_exists'.mp hget
        simp [noteTracked, hcurrent, HasMetric])
      (List.mem_filter.mpr ⟨he, hactive⟩) hsome
    have hgrow := grows_foldl (fun st b _ => hany' st b)
      ((fact.entities.filter (isActive st.ledger d)).foldl (noteTracked a start d) st)
      (l := (decideAdmission (candidateOf d)
        (fact.entities.filter (fun entity => !isActive st.ledger d entity)) active a.policy).admitted)
    exact ⟨m, hgrow.metrics m hm, hkey⟩
  | false =>
    have hunseen : e ∈ fact.entities.filter (fun entity => !isActive st.ledger d entity) :=
      List.mem_filter.mpr ⟨he, by simp [hactive]⟩
    rcases decideAdmission_cases (candidateOf d) active a.policy hunseen with hadm | hmin | hover
    · refine Or.inl ?_
      exact hasMetric_foldl (f := noteAdmitted a start d) (C := fun _ => True) (fun st b => (hany' st b).metrics)
        (fun _ _ _ => trivial) (fun st _ => by simp [noteAdmitted, HasMetric]) hadm trivial
    · exact Or.inr (Or.inr ⟨rfl, hmin⟩)
    · refine Or.inr (Or.inl ?_)
      simp only [admitDimension]
      rw [Dict.get?_set, if_pos rfl]
      simp [AdmissionDecision.truncated, List.ne_nil_of_mem hover]

theorem admitDimension_cut {d active fact} (h : fact.entities.length < fact.entityCount) (st : IpsFoldState) :
    ((admitDimension a start active d fact st).admission.get? d).map (fun c => c.admissionTruncated) = some true := by
  simp only [admitDimension]
  rw [Dict.get?_set, if_pos rfl]
  simp [Nat.sub_pos_of_lt h]

/-! ## One bucket -/

variable {bucket : HistoryIpsBucket} {facts : Dict IpsDimension (Option IpsFact)} {counts : IpsDimension → Int}

def Measured (text : IpsText) (bucket : HistoryIpsBucket) (m : IpsMetricRow) : Prop :=
  ∃ outcome, bucket.outcomes.get? m.entity.1 = some outcome ∧
    m.events = entityEvents text outcome.dimension m.entity.2 outcome.rows

theorem foldEntityDimension_of_foldOutcome {mapping maxEntities outcome fact}
    (h : foldOutcome text mapping maxEntities outcome = .ok (some (.entities fact))) :
    foldEntityDimension text outcome maxEntities = .ok (some fact) := by
  have hmap : ∀ {β : Type} {x : Except Exc (Option β)} {c : β → IpsFact},
      x.map (fun r => r.map c) = .ok (some (.entities fact)) → ∃ r, x = .ok (some r) ∧ c r = .entities fact := by
    intro β x c hx
    cases x with
    | error e => cases hx
    | ok r =>
      cases r with
      | none => cases hx
      | some r => exact ⟨r, rfl, Option.some.inj (Except.ok.inj hx)⟩
  unfold foldOutcome at h
  cases hd : outcome.dimension with
  | totals | sourceIp | portFanout | action =>
    rw [hd] at h
    obtain ⟨_, _, hr⟩ := hmap h
    cases hr
  | destinationPort | destinationIp | signature =>
    rw [hd] at h
    obtain ⟨_, hx, hr⟩ := hmap h
    cases hr
    exact hx

theorem outcome_of_fact (h : allDimensions.mapM (dimensionFact a bucket) = .ok facts) {d fact}
    (hget : facts.get? d = some (some (.entities fact))) :
    ∃ outcome, bucket.outcomes.get? d = some outcome ∧
      foldEntityDimension a.text outcome a.maxEntitiesPerBucket = .ok (some fact) := by
  obtain ⟨d', _, hd'⟩ := exists_of_mem_mapM h (Dict.mem_of_get? hget)
  unfold dimensionFact at hd'
  cases ho : bucket.outcomes.get? d' with
  | none =>
    rw [ho] at hd'
    cases hd'
  | some outcome =>
    rw [ho] at hd'
    cases hf : foldOutcome a.text a.mapping a.maxEntitiesPerBucket outcome with
    | error e =>
      simp only [hf] at hd'
      cases hd'
    | ok r =>
      simp only [hf] at hd'
      cases hd'
      exact ⟨outcome, ho, foldEntityDimension_of_foldOutcome hf⟩

theorem grows_foldDimension (h : allDimensions.mapM (dimensionFact a bucket) = .ok facts) (st : IpsFoldState)
    (d : IpsDimension) : Grows start (Measured a.text bucket) st (foldDimension a start facts counts st d) := by
  unfold foldDimension
  split
  · rename_i fact hget
    obtain ⟨outcome, ho, hfold⟩ := outcome_of_fact h hget
    exact grows_admitDimension (fun e he => ⟨outcome, ho, events_of_entity hfold he⟩) st
  · exact Grows.refl st

theorem foldDimensions_split {d} {l : List IpsDimension} (hd : d ∈ l) (hl : l.Nodup)
    (h : allDimensions.mapM (dimensionFact a bucket) = .ok facts) (st : IpsFoldState) :
    ∃ st₁, Frame d st st₁ ∧
      Frame d (foldDimension a start facts counts st₁ d) (l.foldl (foldDimension a start facts counts) st) ∧
      ∀ m ∈ (foldDimension a start facts counts st₁ d).metrics,
        m ∈ (l.foldl (foldDimension a start facts counts) st).metrics := by
  induction l generalizing st with
  | nil => cases hd
  | cons c l ih =>
    obtain ⟨hc, hl⟩ := List.nodup_cons.mp hl
    by_cases hdc : d = c
    · subst hdc
      refine ⟨st, Frame.refl d st, ?_, ?_⟩
      · refine frame_foldl (fun st b hb => frame_foldDimension ?_ facts counts st) _
        rintro rfl
        exact hc hb
      · exact (grows_foldl (Q := Measured a.text bucket) (f := foldDimension a start facts counts)
          (fun st b _ => grows_foldDimension h st b) _).metrics
    · have hd := (List.mem_cons.mp hd).resolve_left hdc
      obtain ⟨st₁, hbefore, hafter, hmetrics⟩ := ih hd hl (foldDimension a start facts counts st c)
      exact ⟨st₁, (frame_foldDimension hdc facts counts st).trans hbefore, hafter, hmetrics⟩

/-- Traffic of a key in its own dimension: its row, an admission not recorded as whole, or an inactive entity
below the threshold. -/
theorem foldDimension_covers (h : allDimensions.mapM (dimensionFact a bucket) = .ok facts) {key outcome}
    (ho : bucket.outcomes.get? key.1 = some outcome)
    (hpos : 0 < entityEvents a.text outcome.dimension key.2 outcome.rows) {st}
    (hnone : st.admission.get? key.1 = none) :
    HasMetric (foldDimension a start facts counts st key.1).metrics key ∨
      ((foldDimension a start facts counts st key.1).admission.get? key.1).map (fun c => c.admissionTruncated) ≠
        some false ∨
      ((∀ entity, st.ledger.get? key = some entity → entity.active = false) ∧
        (entityEvents a.text outcome.dimension key.2 outcome.rows : Int) < a.policy.minRequests) := by
  unfold foldDimension
  split
  · rename_i fact hget
    obtain ⟨outcome', ho', hfold⟩ := outcome_of_fact h hget
    cases ho.symm.trans ho'
    rcases entity_of_events hfold hpos with hcut | ⟨e, he, hkey, hevents⟩
    · refine Or.inr (Or.inl ?_)
      rw [admitDimension_cut hcut st]
      simp
    · have hname : (key.1, e.valueKey) = key := by rw [hkey]
      rcases admitDimension_notes (a := a) he st with hmetric | htrunc | ⟨hidle, hmin⟩
      · rw [hname] at hmetric
        exact Or.inl hmetric
      · refine Or.inr (Or.inl ?_)
        rw [htrunc]
        simp
      · rw [hevents] at hmin
        refine Or.inr (Or.inr ⟨fun entity hentity => ?_, hmin⟩)
        rw [isActive, hname, hentity] at hidle
        simpa using hidle
  · refine Or.inr (Or.inl ?_)
    rw [hnone]
    simp

/-- No inactive entity admitted by then has traffic below the threshold in a complete outcome. -/
def Quiet (a : IpsHistoryArgs) (f : FoldedBucket φ) : Prop :=
  ∀ key entity outcome, f.before.get? key = some entity → entity.active = false →
    entity.firstSeenAt ≤ f.bucket.bucketStart → f.bucket.outcomes.get? key.1 = some outcome →
    outcome.state = .complete → 0 < entityEvents a.text outcome.dimension key.2 outcome.rows →
    a.policy.minRequests ≤ entityEvents a.text outcome.dimension key.2 outcome.rows

/-- The key had no traffic, or has its row, or admission is not recorded as whole. -/
def CoveredAt (text : IpsText) (f : FoldedBucket φ) (key : EntityKey) : Prop :=
  ∀ outcome, f.bucket.outcomes.get? key.1 = some outcome → outcome.state = .complete →
    entityEvents text outcome.dimension key.2 outcome.rows = 0 ∨ HasMetric f.metrics key ∨
      (f.row.admission.get? key.1).map (fun c => c.admissionTruncated) ≠ some false

structure BucketFolded (a : IpsHistoryArgs) (ledger : IpsLedger) (bucket : HistoryIpsBucket)
    (f : FoldedBucket φ) : Prop where
  bucket_eq : f.bucket = bucket
  before_eq : f.before = ledger
  start_eq : f.row.bucketStart = bucket.bucketStart
  measurement : ∀ d, isEntityDimension d = true →
    f.row.measurements.get? d = some (storedMeasurement (bucket.outcomes.get? d))
  ok : LedgerOk ledger → LedgerOk f.after
  admitted : Admitted bucket.bucketStart ledger f.after f.metrics
  measured : ∀ m ∈ f.metrics, Measured a.text bucket m
  covered : ∀ key entity, isEntityDimension key.1 = true → ledger.get? key = some entity →
    entity.firstSeenAt ≤ bucket.bucketStart → Quiet a f → CoveredAt a.text f key

theorem retireEntity_key (entity : HistoryIpsEntity) : (retireEntity a start entity).key = entity.key := by
  unfold retireEntity
  split <;> rfl

theorem retireEntity_firstSeenAt (entity : HistoryIpsEntity) :
    (retireEntity a start entity).firstSeenAt = entity.firstSeenAt := by
  unfold retireEntity
  split <;> rfl

theorem LedgerOk.retire {ledger} (h : LedgerOk ledger) :
    LedgerOk (ledger.map (fun item => (item.1, retireEntity a start item.2))) := by
  refine ⟨?_, fun item hitem => ?_⟩
  · have hkeys : Dict.keys (ledger.map (fun item => (item.1, retireEntity a start item.2))) = ledger.keys := by
      simp [Dict.keys]
    rw [hkeys]
    exact h.nodup
  · obtain ⟨old, hold, rfl⟩ := List.mem_map.mp hitem
    exact (retireEntity_key old.2).trans (h.named old hold)

theorem mem_entityDimensions {d} (h : isEntityDimension d = true) : d ∈ entityDimensions := by
  cases d with
  | destinationPort | destinationIp | signature => simp [entityDimensions]
  | totals | sourceIp | portFanout | action => cases h

/-- Traffic of a key in a folded bucket: its row, an admission not recorded as whole, or no active entity and a count
below the threshold. -/
theorem foldBucketHistory_covers [PyFloat φ] {ledger : IpsLedger} {f : FoldedBucket φ}
    (h : foldBucketHistory a ledger bucket = .ok f) {key} (hkey : isEntityDimension key.1 = true)
    {outcome} (ho : bucket.outcomes.get? key.1 = some outcome)
    (hpos : 0 < entityEvents a.text outcome.dimension key.2 outcome.rows) :
    HasMetric f.metrics key ∨ (f.row.admission.get? key.1).map (fun c => c.admissionTruncated) ≠ some false ∨
      ((∀ entity, ledger.get? key = some entity → entity.active = false) ∧
        (entityEvents a.text outcome.dimension key.2 outcome.rows : Int) < a.policy.minRequests) := by
  obtain ⟨totals, _, h⟩ := bind_ok h
  obtain ⟨facts, hfacts, h⟩ := bind_ok h
  cases h
  obtain ⟨st₁, hbefore, hafter, hmetrics⟩ := foldDimensions_split (mem_entityDimensions hkey) (by decide) hfacts
    ⟨ledger, [], [], []⟩
  rcases foldDimension_covers hfacts ho hpos hbefore.admission with ⟨m, hm, hmkey⟩ | htrunc | ⟨hidle, hmin⟩
  · exact Or.inl ⟨m, hmetrics m hm, hmkey⟩
  · refine Or.inr (Or.inl ?_)
    rw [← hafter.admission] at htrunc
    exact htrunc
  · exact Or.inr (Or.inr ⟨fun entity hentity => hidle entity ((hbefore.ledger key.2).trans hentity), hmin⟩)

theorem foldBucketHistory_folded [PyFloat φ] {ledger : IpsLedger} {f : FoldedBucket φ}
    (h : foldBucketHistory a ledger bucket = .ok f) : BucketFolded a ledger bucket f := by
  have hrun := h
  obtain ⟨totals, _, h⟩ := bind_ok h
  obtain ⟨facts, hfacts, h⟩ := bind_ok h
  cases h
  have hgrow := grows_foldl (Q := Measured a.text bucket)
    (f := foldDimension a bucket.bucketStart facts (activeCount ledger)) (l := entityDimensions)
    (fun st b _ => grows_foldDimension hfacts st b) ⟨ledger, [], [], []⟩
  have hget : ∀ (l : IpsLedger) key, Dict.get? (l.map
      (fun item => (item.1, retireEntity a bucket.bucketStart item.2))) key =
        (l.get? key).map (retireEntity a bucket.bucketStart) := fun l key =>
    Dict.get?_mapValues l (fun _ entity => retireEntity a bucket.bucketStart entity) key
  refine ⟨rfl, rfl, rfl, ?_, fun hok => (hgrow.ok hok).retire, ?_, ?_, ?_⟩
  · intro d hd
    cases d with
    | destinationPort | destinationIp | signature => rfl
    | totals | sourceIp | portFanout | action => cases hd
  · intro key entity hentity
    rw [hget, Option.map_eq_some_iff] at hentity
    obtain ⟨old, hold, rfl⟩ := hentity
    rw [retireEntity_firstSeenAt]
    exact hgrow.admitted key old hold
  · intro m hm
    exact (hgrow.added m hm).resolve_left List.not_mem_nil
  · intro key entity hkey hentity hfirst hquiet outcome ho hcomplete
    rcases Nat.eq_zero_or_pos (entityEvents a.text outcome.dimension key.2 outcome.rows) with hzero | hpos
    · exact Or.inl hzero
    refine Or.inr ?_
    rcases foldBucketHistory_covers hrun hkey ho hpos with hmetric | htrunc | ⟨hidle, hmin⟩
    · exact Or.inl hmetric
    · exact Or.inr htrunc
    · have hmin' := hquiet key entity outcome hentity (hidle entity hentity) hfirst ho hcomplete hpos
      omega

/-! ## Calls and runs -/

def Since (starts : List Int) (before after : IpsLedger) : Prop :=
  ∀ key entity, after.get? key = some entity →
    (∃ old, before.get? key = some old ∧ old.firstSeenAt = entity.firstSeenAt) ∨ entity.firstSeenAt ∈ starts

/-- The bucket was folded from some ledger, and covers every entity of the ledger that was admitted by then. -/
def Covers (a : IpsHistoryArgs) (f : FoldedBucket φ) (ledger : IpsLedger) : Prop :=
  ∀ key entity, isEntityDimension key.1 = true → ledger.get? key = some entity →
    entity.firstSeenAt ≤ f.bucket.bucketStart → Quiet a f → CoveredAt a.text f key

theorem BucketFolded.covers {ledger} {f : FoldedBucket φ} (h : BucketFolded a ledger bucket f) :
    Covers a f f.after := by
  intro key entity hkey hget hfirst hquiet
  rcases h.admitted key entity hget with ⟨old, hold, hsame⟩ | ⟨_, _, hmetric⟩
  · rw [h.bucket_eq, ← hsame] at hfirst
    exact h.covered key old hkey hold hfirst hquiet
  · exact fun _ _ _ => Or.inr (Or.inl hmetric)

theorem Covers.since {before after starts} {f : FoldedBucket φ} (h : Covers a f before)
    (hsince : Since starts before after) (hlater : ∀ t ∈ starts, f.bucket.bucketStart < t) : Covers a f after := by
  intro key entity hkey hget hfirst hquiet
  rcases hsince key entity hget with ⟨old, hold, hsame⟩ | hmem
  · rw [← hsame] at hfirst
    exact h key old hkey hold hfirst hquiet
  · exact absurd hfirst (Int.not_le.mpr (hlater _ hmem))

theorem foldBuckets_folded [PyFloat φ] {ledger : IpsLedger} {buckets : List HistoryIpsBucket}
    {r : List (FoldedBucket φ) × IpsLedger} (h : foldBuckets a ledger buckets = .ok r) (hok : LedgerOk ledger)
    (horder : buckets.Pairwise (fun left right => left.bucketStart < right.bucketStart)) :
    LedgerOk r.2 ∧ Since (buckets.map (fun b => b.bucketStart)) ledger r.2 ∧
      ∀ f ∈ r.1, BucketFolded a f.before f.bucket f ∧ f.bucket ∈ buckets ∧ Covers a f r.2 := by
  induction buckets generalizing ledger r with
  | nil =>
    cases h
    exact ⟨hok, fun key entity hget => Or.inl ⟨entity, hget, rfl⟩, fun f hf => by cases hf⟩
  | cons bucket buckets ih =>
    obtain ⟨folded, hfolded, h⟩ := bind_ok h
    obtain ⟨rest, hrest, h⟩ := bind_ok h
    cases h
    obtain ⟨hlater, horder⟩ := List.pairwise_cons.mp horder
    have hb := foldBucketHistory_folded hfolded
    obtain ⟨hokrest, hsince, hall⟩ := ih hrest (hb.ok hok) horder
    refine ⟨hokrest, ?_, ?_⟩
    · intro key entity hget
      rcases hsince key entity hget with ⟨mid, hmid, hsame⟩ | hmem
      · rcases hb.admitted key mid hmid with ⟨old, hold, hsame'⟩ | ⟨_, hstart, _⟩
        · exact Or.inl ⟨old, hold, hsame'.trans hsame⟩
        · refine Or.inr ?_
          rw [← hsame, hstart]
          exact List.mem_cons_self
      · exact Or.inr (List.mem_cons_of_mem _ hmem)
    · intro f hf
      rcases List.mem_cons.mp hf with rfl | hf
      · refine ⟨?_, ?_, hb.covers.since hsince ?_⟩
        · rw [hb.before_eq, hb.bucket_eq]
          exact hb
        · rw [hb.bucket_eq]
          exact List.mem_cons_self
        · intro t ht
          obtain ⟨b, hmem, rfl⟩ := List.mem_map.mp ht
          rw [hb.bucket_eq]
          exact hlater b hmem
      · obtain ⟨hfold, hmem, hcovers⟩ := hall f hf
        exact ⟨hfold, List.mem_cons_of_mem _ hmem, hcovers⟩

theorem ledgerOf_ok (existing : List HistoryIpsEntity) : LedgerOk (ledgerOf existing) := by
  have hfold : ∀ (l : List HistoryIpsEntity) (ledger : IpsLedger), LedgerOk ledger →
      LedgerOk (l.foldl (fun ledger entity => Dict.set ledger entity.key entity) ledger) := by
    intro l
    induction l with
    | nil => exact fun ledger h => h
    | cons entity l ih => exact fun ledger h => ih _ (h.set rfl)
  exact hfold existing [] ⟨List.nodup_nil, fun item h => by cases h⟩

theorem mem_of_ledgerOf {existing key entity} (h : (ledgerOf existing).get? key = some entity) : entity ∈ existing := by
  have hfold := Dict.get?_foldl_set HistoryIpsEntity.key id existing [] key
  simp only [id] at hfold
  simp only [ledgerOf] at h
  rw [h] at hfold
  rcases hfold with ⟨entity', hmem, _, rfl⟩ | hnil
  · exact hmem
  · cases hnil

theorem LedgerOk.get?_stored {ledger} (h : LedgerOk ledger) {entity} (hmem : entity ∈ ledger.map (fun item => item.2)) :
    (ledgerOf (ledger.map (fun item => item.2))).get? entity.key = some entity := by
  have hlookup : ∀ e ∈ ledger.map (fun item => item.2), ledger.get? e.key = some e := by
    intro e he
    obtain ⟨item, hitem, rfl⟩ := List.mem_map.mp he
    rw [h.named item hitem]
    exact (Dict.get?_eq_some_iff h.nodup).mpr hitem
  have hfold := Dict.get?_foldl_set HistoryIpsEntity.key id (ledger.map (fun item => item.2)) [] entity.key
  simp only [id] at hfold
  simp only [ledgerOf]
  split at hfold
  · rename_i e heq
    rcases hfold with ⟨e', he', hkey, rfl⟩ | hnil
    · rw [heq, ← hlookup e' he', hkey, hlookup entity hmem]
    · cases hnil
  · exact absurd rfl (hfold.2 entity hmem)

abbrev IpsCall := IpsHistoryArgs × List HistoryIpsBucket

def ipsStep (φ : Type) [PyFloat φ] (existing : List HistoryIpsEntity) (call : IpsCall) :
    Except Exc (IpsHistoryFold φ) :=
  foldIpsHistory call.1 call.2 existing

def ipsNext (fold : IpsHistoryFold φ) : List HistoryIpsEntity := fold.ledger.map (fun item => item.2)

abbrev IpsTrace (φ : Type) := List (Taken (List HistoryIpsEntity) IpsCall (IpsHistoryFold φ))

def InOrder (tr : IpsTrace φ) : Prop :=
  (tr.flatMap (fun e => e.input.2)).Pairwise (fun left right => left.bucketStart < right.bucketStart)

instance (tr : IpsTrace φ) : Decidable (InOrder tr) := inferInstanceAs (Decidable (List.Pairwise _ _))

theorem ipsRun_covers [PyFloat φ] {s₀ s : List HistoryIpsEntity}
    {tr : IpsTrace φ} (h : Run (ipsStep φ) ipsNext s₀ tr s) (horder : InOrder tr) :
    ∀ e ∈ tr, ∀ f ∈ e.output.folded, BucketFolded e.input.1 f.before f.bucket f ∧ f.bucket ∈ e.input.2 ∧
      Covers e.input.1 f (ledgerOf s) ∧ ∀ entity ∈ s, (ledgerOf s).get? entity.key = some entity := by
  revert horder
  refine h.invariant' (fun tr s => InOrder tr → ∀ e ∈ tr, ∀ f ∈ e.output.folded,
      BucketFolded e.input.1 f.before f.bucket f ∧ f.bucket ∈ e.input.2 ∧ Covers e.input.1 f (ledgerOf s) ∧
        ∀ entity ∈ s, (ledgerOf s).get? entity.key = some entity)
    (by simp) ?_
  intro tr s call out hI hs horder e he f hf
  rw [InOrder, List.flatMap_append, List.pairwise_append] at horder
  simp only [List.flatMap_cons, List.flatMap_nil, List.append_nil] at horder
  obtain ⟨hpast, hnew, hlater⟩ := horder
  obtain ⟨_, _, hs⟩ := bind_ok hs
  obtain ⟨_, _, hs⟩ := bind_ok hs
  obtain ⟨r, hr, hs⟩ := bind_ok hs
  cases hs
  obtain ⟨hok, hsince, hall⟩ := foldBuckets_folded hr (ledgerOf_ok s) hnew
  -- The stored entities are the ledger's, so reading them back changes no lookup.
  have hback : Since [] r.2 (ledgerOf (ipsNext ⟨r.1, r.2⟩)) := by
    intro key entity hget
    obtain ⟨item, hitem, rfl⟩ := List.mem_map.mp (mem_of_ledgerOf hget)
    have hkey : item.1 = key := (hok.named item hitem).symm.trans ((ledgerOf_ok _).key_of_get? hget)
    exact Or.inl ⟨item.2, (Dict.get?_eq_some_iff hok.nodup).mpr (hkey ▸ hitem), rfl⟩
  rcases List.mem_append.mp he with he | he
  · obtain ⟨hfold, hmem, hcovers, _⟩ := hI hpast e he f hf
    refine ⟨hfold, hmem, (hcovers.since hsince ?_).since hback (by simp), fun _ => hok.get?_stored⟩
    intro t ht
    obtain ⟨b, hb, rfl⟩ := List.mem_map.mp ht
    exact hlater _ (List.mem_flatMap.mpr ⟨e, he, hmem⟩) b hb
  · cases List.mem_singleton.mp he
    obtain ⟨hfold, hmem, hcovers⟩ := hall f hf
    exact ⟨hfold, hmem, hcovers.since hback (by simp), fun _ => hok.get?_stored⟩

/-! ## The reading -/

def metricEvents (metrics : List IpsMetricRow) (key : EntityKey) : Option Nat :=
  (metrics.find? (fun m => m.entity = key)).map (fun m => m.events)

def HonestZero [PyFloat φ] (a : IpsHistoryArgs) (f : FoldedBucket φ) (entity : HistoryIpsEntity)
    (minCoverage : φ) : Prop :=
  (entityCount (.of entity) (.of f.row) (metricEvents f.metrics entity.key) minCoverage).events = some 0 →
  (entityCount (.of entity) (.of f.row) (metricEvents f.metrics entity.key) minCoverage).measurement = some .exact →
  ∀ outcome, f.bucket.outcomes.get? entity.dimension = some outcome → ∀ row ∈ outcome.rows,
    rowEntityKey a.text outcome.dimension row = some entity.valueKey → row.events = 0

theorem entityCount_zero [PyFloat φ] {entity} {facts : IpsSourceBucketFacts φ} {m c}
    (hevents : (entityCount entity facts m c).events = some 0)
    (hexact : (entityCount entity facts m c).measurement = some .exact) :
    isEntityDimension entity.dimension = true ∧ ∃ dim, facts.dimensions.get? entity.dimension = some dim ∧
      dim.measurement = .exact ∧ (m = some 0 ∨
        (m = none ∧ entity.firstSeenAt ≤ facts.bucketStart ∧ dim.admissionTruncated = some false)) := by
  unfold entityCount at hevents hexact
  cases hdim : facts.dimensions.get? entity.dimension with
  | none => simp [hdim, EntityCount.unknown] at hevents
  | some dim =>
    simp only [hdim] at hevents hexact
    have hstored : dim.wafMeasurement = some .exact → dim.measurement = .exact := by
      unfold IpsDimensionFacts.wafMeasurement
      cases dim.measurement <;> simp
    cases m with
    | some events =>
      dsimp only at hevents hexact
      split_ifs at hevents hexact with hentity hmeasured
      · exact ⟨hentity, dim, rfl, hstored hexact, Or.inl hevents⟩
      · cases hevents
      · cases hevents
    | none =>
      dsimp only at hevents hexact
      split_ifs at hevents hexact with hentity hmeasured hactive hfirst hlower hcoverage
      · cases hevents
      · cases hevents
      · refine ⟨hentity, dim, rfl, hstored (not_not.mp hlower), Or.inr ⟨rfl, Int.not_lt.mp hfirst, ?_⟩⟩
        cases htrunc : dim.admissionTruncated with
        | none => simp [htrunc, EntityCount.unknown] at hevents
        | some b =>
          cases b with
          | true => simp [htrunc, EntityCount.unknown] at hevents
          | false => rfl
      · cases hevents
      · cases hevents
      · cases hevents
      · cases hevents

theorem facts_of_row {row : IpsBucketRow φ} {d} (hd : isEntityDimension d = true) :
    (IpsSourceBucketFacts.of row).dimensions.get? d = some (dimensionFacts row d) := by
  cases d with
  | destinationPort | destinationIp | signature => rfl
  | totals | sourceIp | portFanout | action => cases hd

theorem complete_of_stored {outcome} (h : storedMeasurement (some outcome) = .exact) : outcome.state = .complete := by
  simp only [storedMeasurement] at h
  cases hstate : outcome.state with
  | complete => rfl
  | lowerBound | failed | rejected | notCollected =>
    rw [hstate] at h
    cases h

theorem measured_of_metricEvents {metrics key n}
    (h : metricEvents metrics key = some n) : ∃ m ∈ metrics, m.entity = key ∧ m.events = n := by
  obtain ⟨m, hfind, hn⟩ := Option.map_eq_some_iff.mp h
  exact ⟨m, List.mem_of_find?_eq_some hfind, by simpa using List.find?_some hfind, hn⟩

theorem no_events_of_zero [PyFloat φ] {f : FoldedBucket φ} {entity : HistoryIpsEntity} {c}
    (hfold : BucketFolded a f.before f.bucket f)
    (hcovered : isEntityDimension entity.dimension = true → entity.firstSeenAt ≤ f.bucket.bucketStart →
      CoveredAt a.text f entity.key)
    (hevents : (entityCount (.of entity) (.of f.row) (metricEvents f.metrics entity.key) c).events = some 0)
    (hexact : (entityCount (.of entity) (.of f.row) (metricEvents f.metrics entity.key) c).measurement =
      some .exact) {outcome} (ho : f.bucket.outcomes.get? entity.dimension = some outcome) :
    entityEvents a.text outcome.dimension entity.valueKey outcome.rows = 0 := by
  obtain ⟨hentity, dim, hdim, hmeasurement, hread⟩ := entityCount_zero hevents hexact
  have hdim' : dim = dimensionFacts f.row entity.dimension :=
    Option.some.inj (hdim.symm.trans (facts_of_row hentity))
  subst hdim'
  rcases hread with hmetric | ⟨hmissing, hfirst, htrunc⟩
  · obtain ⟨m, hm, hkey, hzero⟩ := measured_of_metricEvents hmetric
    obtain ⟨outcome', ho', hevents'⟩ := hfold.measured m hm
    rw [hkey] at ho' hevents'
    cases ho.symm.trans ho'
    exact hevents'.symm.trans hzero
  · have hcomplete : outcome.state = .complete := by
      apply complete_of_stored
      have hstored : (f.row.measurements.get? entity.dimension).getD .notCollected = .exact := hmeasurement
      rw [hfold.measurement entity.dimension hentity, ho] at hstored
      exact hstored
    have hstart : entity.firstSeenAt ≤ f.bucket.bucketStart := hfold.start_eq ▸ hfirst
    rcases hcovered hentity hstart outcome ho hcomplete with hzero | ⟨m, hm, hkey⟩ | hnot
    · exact hzero
    · have hnone := Option.map_eq_none_iff.mp hmissing
      rw [List.find?_eq_none] at hnone
      exact absurd hkey (by simpa using hnone m hm)
    · refine absurd ?_ hnot
      have hdimension : (IpsEntityFacts.of entity).dimension = entity.dimension := rfl
      rw [hdimension] at hentity
      simpa [dimensionFacts, hentity, HistoryIpsEntity.key] using htrunc

end QRadarDashboard.Ips
