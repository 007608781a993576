import QRadarDashboard.History.Codec
import QRadarDashboard.Lib.Except

/-!
# What the codec writes is what it reads
-/

namespace QRadarDashboard.History
open Lib

variable {φ τ σ : Type}

/-! ## The times of a progress -/

def Gap.map (f : τ → σ) (g : Gap τ) : Gap σ := ⟨f g.start, f g.stop, g.reason⟩

/-- The progress with every time changed by `f`. -/
def ScopeProgress.map (f : τ → σ) (p : ScopeProgress τ φ) : ScopeProgress σ φ :=
  { p with
    targetStart := f p.targetStart
    startedAt := f p.startedAt
    floor := p.floor.map f
    firstEventBucket := p.firstEventBucket.map f
    through := p.through.map f
    scanCursor := p.scanCursor.map f
    gaps := p.gaps.map (Gap.map f) }

structure ScopeProgress.All (P : τ → Prop) (p : ScopeProgress τ φ) : Prop where
  targetStart : P p.targetStart
  startedAt : P p.startedAt
  floor : ∀ t ∈ p.floor, P t
  firstEventBucket : ∀ t ∈ p.firstEventBucket, P t
  through : ∀ t ∈ p.through, P t
  scanCursor : ∀ t ∈ p.scanCursor, P t
  gaps : ∀ g ∈ p.gaps, P g.start ∧ P g.stop

theorem ScopeProgress.All.imp {P Q : τ → Prop} {p : ScopeProgress τ φ} (h : p.All P) (hPQ : ∀ t, P t → Q t) : p.All Q :=
  ⟨hPQ _ h.targetStart, hPQ _ h.startedAt, fun t ht => hPQ t (h.floor t ht),
    fun t ht => hPQ t (h.firstEventBucket t ht), fun t ht => hPQ t (h.through t ht),
    fun t ht => hPQ t (h.scanCursor t ht),
    fun g hg => ⟨hPQ _ (h.gaps g hg).1, hPQ _ (h.gaps g hg).2⟩⟩

theorem ScopeProgress.All.and {P Q : τ → Prop} {p : ScopeProgress τ φ} (h : p.All P) (h' : p.All Q) :
    p.All (fun t => P t ∧ Q t) :=
  ⟨⟨h.targetStart, h'.targetStart⟩, ⟨h.startedAt, h'.startedAt⟩,
    fun t ht => ⟨h.floor t ht, h'.floor t ht⟩,
    fun t ht => ⟨h.firstEventBucket t ht, h'.firstEventBucket t ht⟩,
    fun t ht => ⟨h.through t ht, h'.through t ht⟩, fun t ht => ⟨h.scanCursor t ht, h'.scanCursor t ht⟩,
    fun g hg => ⟨⟨(h.gaps g hg).1, (h'.gaps g hg).1⟩, (h.gaps g hg).2, (h'.gaps g hg).2⟩⟩

theorem map_eq_of_mem {f g : τ → σ} {x : Option τ} (h : ∀ t ∈ x, f t = g t) : x.map f = x.map g := by
  cases x with
  | none => rfl
  | some t => simp [h t rfl]

theorem ScopeProgress.All.map_congr {f g : τ → σ} {p : ScopeProgress τ φ}
    (h : p.All (fun t => f t = g t)) : p.map f = p.map g := by
  have hgaps : p.gaps.map (Gap.map f) = p.gaps.map (Gap.map g) := by
    apply List.map_congr_left
    intro x hx
    simp only [Gap.map]
    rw [(h.gaps x hx).1, (h.gaps x hx).2]
  unfold ScopeProgress.map
  rw [h.targetStart, h.startedAt, map_eq_of_mem h.floor, map_eq_of_mem h.firstEventBucket,
    map_eq_of_mem h.through, map_eq_of_mem h.scanCursor, hgaps]

theorem ScopeProgress.map_map {ρ : Type} (f : τ → σ) (g : σ → ρ) (p : ScopeProgress τ φ) :
    (p.map f).map g = p.map (g ∘ f) := by
  simp [ScopeProgress.map, Function.comp_def, Gap.map]

theorem ScopeProgress.map_id (p : ScopeProgress τ φ) : p.map id = p := by
  have hgap : Gap.map (id : τ → τ) = id := rfl
  simp [ScopeProgress.map, hgap]

structure Decodable [PyFloat φ] (p : ScopeProgress DateTime φ) : Prop where
  utc : p.All (fun t => t.utcoffset = some 0)
  ceiling : 0 ≤ p.ceilingSuccesses
  density : ∀ x ∈ p.recentRowsPerBucket, PyFloat.isfinite x = true

/-! ## Encoding -/

def timeJson (t : DateTime) : Json φ := .str (String.ofList t.isoformat)

def gapJson (g : Gap DateTime) : Json φ :=
  .obj [("start", timeJson g.start), ("end", timeJson g.stop), ("reason", .str g.reason)]

def floatJson : Option φ → Json φ
  | none => .null
  | some x => .float x

def optionalJson : Option DateTime → Json φ
  | none => .null
  | some t => timeJson t

def utcBody (p : ScopeProgress DateTime φ) : JsonObject φ :=
  [("target_start", timeJson p.targetStart), ("started_at", timeJson p.startedAt),
    ("floor", optionalJson p.floor), ("first_event_bucket", optionalJson p.firstEventBucket),
    ("through", optionalJson p.through), ("scan_cursor", optionalJson p.scanCursor),
    ("scan_failures", .int p.scanFailures), ("chunk_buckets", encodeInt p.chunkBuckets),
    ("chunk_ceiling", encodeInt p.chunkCeiling), ("ceiling_successes", .int p.ceilingSuccesses),
    ("failures", .int p.failures), ("searches", .int p.searches),
    ("buckets_read", .int p.bucketsRead), ("lower_bound_buckets", .int p.lowerBoundBuckets),
    ("rows_seen", .int p.rowsSeen), ("non_silent_buckets", .int p.nonSilentBuckets),
    ("recent_rows_per_bucket", floatJson p.recentRowsPerBucket),
    ("density_checked", .bool p.densityChecked), ("gaps", .arr (p.gaps.map gapJson))]

def Encodable (t : DateTime) : Prop := t.utcoffset.isSome = true ∧ t.InRange

theorem encodeDatetime_ok {t} (h : Encodable t) (name : String) :
    encodeDatetime t name = .ok (timeJson (φ := φ) t.utc) := by
  obtain ⟨o, ho⟩ := Option.isSome_iff_exists.mp h.1
  simp [encodeDatetime, ho, DateTime.toUtc_eq_some_utc ho h.2, timeJson]

theorem encodable_of_encodeDatetime {t name} {j : Json φ}
    (h : encodeDatetime t name = .ok j) : Encodable t := by
  unfold encodeDatetime at h
  cases ho : t.utcoffset with
  | none => simp [ho] at h
  | some o =>
    cases hu : t.toUtc o with
    | none => simp [ho, hu] at h
    | some u => exact ⟨by simp [ho], DateTime.inRange_of_toUtc ho hu⟩

theorem encodeOptional_ok {t} (h : ∀ x ∈ t, Encodable x) (name : String) :
    encodeOptional t name = .ok (optionalJson (φ := φ) (t.map DateTime.utc)) := by
  cases t with
  | none => rfl
  | some t => exact encodeDatetime_ok (h t rfl) name

theorem encodable_of_encodeOptional {t name} {j : Json φ}
    (h : encodeOptional t name = .ok j) : ∀ x ∈ t, Encodable x := by
  cases t with
  | none => simp
  | some t =>
    intro x hx
    cases hx
    exact encodable_of_encodeDatetime h

theorem encodeGap_ok {g} (h : Encodable g.start ∧ Encodable g.stop) :
    encodeGap g = .ok (gapJson (φ := φ) (g.map DateTime.utc)) := by
  unfold encodeGap
  rw [encodeDatetime_ok h.1, encodeDatetime_ok h.2]
  rfl

/-! ## Reading one field -/

def restored (v : Int) (p : ScopeProgress DateTime φ) : ScopeProgress DateTime φ :=
  { p with
    ceilingSuccesses := if v < 2 then 0 else p.ceilingSuccesses
    recentRowsPerBucket := if v < 3 then none else p.recentRowsPerBucket }

def storedBody (v : Int) (p : ScopeProgress DateTime φ) : JsonObject φ :=
  (utcBody p).filter (fun m => !(absentAt v).contains m.1)

theorem decodeDatetime_timeJson {t} (h : t.utcoffset = some 0) (name : String) :
    decodeDatetime (φ := φ) (timeJson t) name = .ok t := by
  simp [decodeDatetime, timeJson, fromisoformat_isoformat h, h, DateTime.toUtc_zero h]

theorem requiredDatetime_ok {body : JsonObject φ} {name t} (hm : member body name = timeJson t)
    (h : t.utcoffset = some 0) : requiredDatetime body name = .ok t := by
  have := decodeDatetime_timeJson (φ := φ) h name
  unfold requiredDatetime
  rw [hm]
  exact this

theorem optionalDatetime_ok {body : JsonObject φ} {name t}
    (hm : member body name = optionalJson t) (h : ∀ x ∈ t, x.utcoffset = some 0) :
    optionalDatetime body name = .ok t := by
  unfold optionalDatetime
  rw [hm]
  cases t with
  | none => rfl
  | some t =>
    have := decodeDatetime_timeJson (φ := φ) (h t rfl) name
    simp only [optionalJson, timeJson] at this ⊢
    rw [this]
    rfl

theorem optionalInt_ok {body : JsonObject φ} {name n}
    (hm : member body name = encodeInt n) : optionalInt body name = .ok n := by
  unfold optionalInt
  rw [hm]
  cases n <;> rfl

theorem decodeGaps_ok {gaps} (h : ∀ g ∈ gaps, g.start.utcoffset = some 0 ∧ g.stop.utcoffset = some 0) (index : Nat) :
    decodeGaps (φ := φ) index (gaps.map gapJson) = .ok gaps := by
  induction gaps generalizing index with
  | nil => rfl
  | cons g gaps ih =>
    obtain ⟨hs, he⟩ := h g List.mem_cons_self
    have hgap : decodeGap (φ := φ) index (gapJson g) = .ok g := by
      unfold decodeGap gapJson
      simp only [keysAre, gapKeys, member, List.lookup_cons]
      simp [decodeDatetime_timeJson hs, decodeDatetime_timeJson he, bind, Except.bind, pure,
        Except.pure]
    rw [List.map_cons, decodeGaps, hgap]
    simp only [bind, Except.bind, pure, Except.pure]
    rw [ih (fun g hg => h g (List.mem_cons_of_mem _ hg))]

theorem decodeInt_ok {body : JsonObject φ} {name field n}
    (hm : member body name = .int n) : decodeInt (member body name) field = .ok n := by
  rw [hm]
  rfl

theorem decodeCount_ok {n} (h : 0 ≤ n) (name : String) : decodeCount (φ := φ) (.int n) name = .ok n := by
  simp [decodeCount, decodeInt, bind, Except.bind, pure, Except.pure, Int.not_lt.mpr h]

theorem member_stored {v} (hv : v = 2 ∨ v = 3) {p name}
    {j : Json φ} (h₂ : member (storedBody 2 p) name = j) (h₃ : member (storedBody 3 p) name = j) :
    member (storedBody v p) name = j := by
  rcases hv with rfl | rfl
  · exact h₂
  · exact h₃

/-! ## The times the decoder returns -/

theorem utc_of_decodeDatetime {j : Json φ} {name t}
    (h : decodeDatetime j name = .ok t) : t.utcoffset = some 0 := by
  unfold decodeDatetime at h
  split at h
  · split at h
    · cases h
    · split at h
      · cases h
      · split at h
        · cases h
        · rename_i hu
          cases h
          exact (DateTime.toUtc_instant hu).1
  · cases h

theorem utc_of_requiredDatetime {body : JsonObject φ} {name t}
    (h : requiredDatetime body name = .ok t) : t.utcoffset = some 0 := by
  unfold requiredDatetime at h
  split at h
  · cases h
  · exact utc_of_decodeDatetime h

theorem utc_of_optionalDatetime {body : JsonObject φ} {name t}
    (h : optionalDatetime body name = .ok t) : ∀ x ∈ t, x.utcoffset = some 0 := by
  unfold optionalDatetime at h
  split at h
  · cases h
    simp
  · obtain ⟨x, hx, h⟩ := bind_ok h
    cases h
    intro y hy
    cases hy
    exact utc_of_decodeDatetime hx

theorem utc_of_decodeGap {index : Nat} {j : Json φ} {g} (h : decodeGap index j = .ok g) :
    g.start.utcoffset = some 0 ∧ g.stop.utcoffset = some 0 := by
  unfold decodeGap at h
  split at h
  · split at h
    · cases h
    · split at h
      · obtain ⟨s, hs, h⟩ := bind_ok h
        obtain ⟨e, he, h⟩ := bind_ok h
        cases h
        exact ⟨utc_of_decodeDatetime hs, utc_of_decodeDatetime he⟩
      · cases h
  · cases h

theorem utc_of_decodeGaps {raw : List (Json φ)} : ∀ {index : Nat} {gaps : List (Gap DateTime)},
    decodeGaps index raw = .ok gaps →
    ∀ g ∈ gaps, g.start.utcoffset = some 0 ∧ g.stop.utcoffset = some 0 := by
  induction raw with
  | nil =>
    intro index gaps h
    cases h
    simp
  | cons j raw ih =>
    intro index gaps h
    obtain ⟨g, hg, h⟩ := bind_ok h
    obtain ⟨rest, hrest, h⟩ := bind_ok h
    cases h
    intro x hx
    rcases List.mem_cons.mp hx with rfl | hx
    · exact utc_of_decodeGap hg
    · exact ih hrest x hx

theorem utc_of_decodeGapList {j : Json φ} {gaps} (h : decodeGapList j = .ok gaps) :
    ∀ g ∈ gaps, g.start.utcoffset = some 0 ∧ g.stop.utcoffset = some 0 := by
  unfold decodeGapList at h
  split at h
  · exact utc_of_decodeGaps h
  · cases h

/-! ## A whole body -/

variable [PyFloat φ]

theorem encodeFloat_ok {x : Option φ} (h : ∀ y ∈ x, PyFloat.isfinite y = true) (name : String) :
    encodeFloat x name = .ok (floatJson x) := by
  cases x with
  | none => rfl
  | some x => simp [encodeFloat, h x rfl, floatJson]

theorem encodeBody_ok {p : ScopeProgress DateTime φ} (h : p.All Encodable)
    (hd : ∀ x ∈ p.recentRowsPerBucket, PyFloat.isfinite x = true) :
    encodeBody p = .ok (utcBody (p.map DateTime.utc)) := by
  have hgaps : p.gaps.mapM encodeGap =
      .ok ((p.gaps.map (Gap.map DateTime.utc)).map (gapJson (φ := φ))) := by
    rw [List.map_map]
    exact mapM_ok (fun g hg => encodeGap_ok (h.gaps g hg))
  unfold encodeBody
  rw [encodeDatetime_ok h.targetStart, encodeDatetime_ok h.startedAt, encodeOptional_ok h.floor,
    encodeOptional_ok h.firstEventBucket, encodeOptional_ok h.through, encodeOptional_ok h.scanCursor,
    encodeFloat_ok hd, hgaps]
  rfl

theorem encodable_of_encodeBody {p} {body : JsonObject φ}
    (h : encodeBody p = .ok body) : p.All Encodable := by
  unfold encodeBody at h
  obtain ⟨_, h₁, h⟩ := bind_ok h
  obtain ⟨_, h₂, h⟩ := bind_ok h
  obtain ⟨_, h₃, h⟩ := bind_ok h
  obtain ⟨_, h₄, h⟩ := bind_ok h
  obtain ⟨_, h₅, h⟩ := bind_ok h
  obtain ⟨_, h₆, h⟩ := bind_ok h
  obtain ⟨_, _, h⟩ := bind_ok h
  obtain ⟨gaps, h₇, _⟩ := bind_ok h
  refine ⟨encodable_of_encodeDatetime h₁, encodable_of_encodeDatetime h₂,
    encodable_of_encodeOptional h₃, encodable_of_encodeOptional h₄, encodable_of_encodeOptional h₅,
    encodable_of_encodeOptional h₆, ?_⟩
  intro g hg
  obtain ⟨j, hj⟩ := exists_ok_of_mapM h₇ g hg
  unfold encodeGap at hj
  obtain ⟨_, hs, hj⟩ := bind_ok hj
  obtain ⟨_, he, _⟩ := bind_ok hj
  exact ⟨encodable_of_encodeDatetime hs, encodable_of_encodeDatetime he⟩

theorem finite_of_encodeBody {p : ScopeProgress DateTime φ} {body} (h : encodeBody p = .ok body) :
    ∀ x ∈ p.recentRowsPerBucket, PyFloat.isfinite x = true := by
  unfold encodeBody at h
  obtain ⟨_, _, h⟩ := bind_ok h
  obtain ⟨_, _, h⟩ := bind_ok h
  obtain ⟨_, _, h⟩ := bind_ok h
  obtain ⟨_, _, h⟩ := bind_ok h
  obtain ⟨_, _, h⟩ := bind_ok h
  obtain ⟨_, _, h⟩ := bind_ok h
  obtain ⟨_, hfloat, _⟩ := bind_ok h
  intro x hx
  rw [Option.mem_def.mp hx, encodeFloat] at hfloat
  split at hfloat
  · assumption
  · cases hfloat

theorem decodeFloat_ok {x : Option φ} (h : ∀ y ∈ x, PyFloat.isfinite y = true) (name : String) :
    decodeFloat (floatJson x) name = .ok x := by
  cases x with
  | none => rfl
  | some x => simp [decodeFloat, floatJson, h x rfl]

theorem decodeCeiling_stored {v} (hv : v = 2 ∨ v = 3) {p : ScopeProgress DateTime φ} (h : Decodable p) :
    decodeCeiling (.int v) (storedBody v p) = .ok (restored v p).ceilingSuccesses := by
  have hm : member (storedBody v p) "ceiling_successes" = .int p.ceilingSuccesses :=
    member_stored hv rfl rfl
  unfold decodeCeiling
  rw [hm, decodeCount_ok h.ceiling]
  rcases hv with rfl | rfl <;> rfl

theorem decodeDensity_stored {v : Int} (hv : v = 2 ∨ v = 3) {p : ScopeProgress DateTime φ} (h : Decodable p) :
    decodeDensity (.int v) (storedBody v p) = .ok (restored v p).recentRowsPerBucket := by
  rcases hv with rfl | rfl
  · rfl
  · have hm : member (storedBody 3 p) "recent_rows_per_bucket" = floatJson p.recentRowsPerBucket := rfl
    unfold decodeDensity
    rw [hm, decodeFloat_ok h.density]
    rfl

theorem decodeBody_stored {v : Int} (hv : v = 2 ∨ v = 3) {p : ScopeProgress DateTime φ}
    (h : Decodable p) : decodeBody (.int v) (storedBody v p) = .ok (restored v p) := by
  have hbool : member (storedBody v p) "density_checked" = .bool p.densityChecked :=
    member_stored hv rfl rfl
  have hgaps : member (storedBody v p) "gaps" = .arr (p.gaps.map gapJson) := member_stored hv rfl rfl
  unfold decodeBody
  rw [requiredDatetime_ok (member_stored hv rfl rfl) h.utc.targetStart,
    requiredDatetime_ok (member_stored hv rfl rfl) h.utc.startedAt,
    optionalDatetime_ok (member_stored hv rfl rfl) h.utc.floor,
    optionalDatetime_ok (member_stored hv rfl rfl) h.utc.firstEventBucket,
    optionalDatetime_ok (member_stored hv rfl rfl) h.utc.through,
    optionalDatetime_ok (member_stored hv rfl rfl) h.utc.scanCursor,
    decodeInt_ok (n := p.scanFailures) (member_stored hv rfl rfl),
    optionalInt_ok (n := p.chunkBuckets) (member_stored hv rfl rfl),
    optionalInt_ok (n := p.chunkCeiling) (member_stored hv rfl rfl),
    decodeInt_ok (n := p.failures) (member_stored hv rfl rfl),
    decodeInt_ok (n := p.searches) (member_stored hv rfl rfl),
    decodeInt_ok (n := p.bucketsRead) (member_stored hv rfl rfl),
    decodeInt_ok (n := p.lowerBoundBuckets) (member_stored hv rfl rfl),
    decodeInt_ok (n := p.rowsSeen) (member_stored hv rfl rfl),
    decodeInt_ok (n := p.nonSilentBuckets) (member_stored hv rfl rfl),
    decodeCeiling_stored hv h, decodeDensity_stored hv h, hbool, hgaps]
  simp only [bind, Except.bind, decodeBool, decodeGapList]
  rw [decodeGaps_ok h.utc.gaps]
  rfl

theorem keysAre_stored {v} (hv : v = 2 ∨ v = 3) (p : ScopeProgress DateTime φ) :
    keysAre (storedBody v p) (expectedNames (φ := φ) (.int v)) = true := by
  rcases hv with rfl | rfl <;> rfl

theorem decodeProgress_document (repr : Json φ → String) {v} (hv : v = 1 ∨ v = 2 ∨ v = 3)
    (body adapter : JsonObject φ) :
    decodeProgress repr (document v body adapter) = decodeFields repr (.int v) adapter body := by
  rcases hv with rfl | rfl | rfl <;> rfl

theorem decodeFields_ok {repr : Json φ → String} {version adapter body r}
    (h : decodeFields repr version adapter body = .ok r) :
    keysAre body (expectedNames version) = true ∧ decodeBody version body = .ok r.progress ∧ r.adapter = adapter := by
  unfold decodeFields at h
  dsimp only at h
  split at h
  · cases h
  · rename_i hkeys
    obtain ⟨p, hp, h⟩ := bind_ok h
    cases h
    exact ⟨by simpa using hkeys, hp, rfl⟩

theorem decodeProgress_stored {v} (hv : v = 2 ∨ v = 3) {p : ScopeProgress DateTime φ}
    (h : Decodable p) (repr : Json φ → String) (adapter : JsonObject φ) :
    decodeProgress repr (document v (storedBody v p) adapter) = .ok ⟨restored v p, adapter⟩ := by
  rw [decodeProgress_document repr (Or.inr hv)]
  unfold decodeFields
  simp only [keysAre_stored hv, decodeBody_stored hv h]
  rfl

theorem keysAre_version1 (p : ScopeProgress DateTime φ) :
    keysAre (storedBody 1 p) (expectedNames (φ := φ) (.int 1)) = false := rfl

/-! ## What the decoder returns -/

theorem nonneg_of_decodeCeiling {version} {body : JsonObject φ} {n}
    (h : decodeCeiling version body = .ok n) : 0 ≤ n := by
  unfold decodeCeiling at h
  split at h
  · cases h
    exact Int.le_refl 0
  · unfold decodeCount at h
    obtain ⟨count, _, h⟩ := bind_ok h
    split at h
    · cases h
    · cases h
      omega

theorem finite_of_decodeDensity {version body} {x : Option φ}
    (h : decodeDensity version body = .ok x) : ∀ y ∈ x, PyFloat.isfinite y = true := by
  have hfin : ∀ {z : φ} {name : String}, (if PyFloat.isfinite z then .ok (some z)
      else .error (Exc.progressCodec s!"{name} must be a finite number")) = Except.ok x →
      ∀ y ∈ x, PyFloat.isfinite y = true := by
    intro z name hz
    split at hz
    · cases hz
      intro y hy
      cases hy
      assumption
    · cases hz
  unfold decodeDensity at h
  split at h
  · cases h
    simp
  · unfold decodeFloat at h
    split at h
    · cases h
      simp
    · exact hfin h
    · exact hfin h
    · cases h

theorem decodable_of_decodeBody {version : Json φ} {body : JsonObject φ}
    {p} (h : decodeBody version body = .ok p) : Decodable p := by
  unfold decodeBody at h
  obtain ⟨_, h₁, h⟩ := bind_ok h
  obtain ⟨_, h₂, h⟩ := bind_ok h
  obtain ⟨_, h₃, h⟩ := bind_ok h
  obtain ⟨_, h₄, h⟩ := bind_ok h
  obtain ⟨_, h₅, h⟩ := bind_ok h
  obtain ⟨_, h₆, h⟩ := bind_ok h
  obtain ⟨_, _, h⟩ := bind_ok h
  obtain ⟨_, _, h⟩ := bind_ok h
  obtain ⟨_, _, h⟩ := bind_ok h
  obtain ⟨_, _, h⟩ := bind_ok h
  obtain ⟨_, _, h⟩ := bind_ok h
  obtain ⟨_, _, h⟩ := bind_ok h
  obtain ⟨_, _, h⟩ := bind_ok h
  obtain ⟨_, _, h⟩ := bind_ok h
  obtain ⟨_, _, h⟩ := bind_ok h
  obtain ⟨_, hceiling, h⟩ := bind_ok h
  obtain ⟨_, hdensity, h⟩ := bind_ok h
  obtain ⟨_, _, h⟩ := bind_ok h
  obtain ⟨_, hgaps, h⟩ := bind_ok h
  cases h
  exact ⟨⟨utc_of_requiredDatetime h₁, utc_of_requiredDatetime h₂, utc_of_optionalDatetime h₃,
    utc_of_optionalDatetime h₄, utc_of_optionalDatetime h₅, utc_of_optionalDatetime h₆,
    utc_of_decodeGapList hgaps⟩, nonneg_of_decodeCeiling hceiling, finite_of_decodeDensity hdensity⟩

theorem decodable_of_decodeProgress {repr : Json φ → String} {data r}
    (h : decodeProgress repr data = .ok r) : Decodable r.progress := by
  unfold decodeProgress at h
  split at h
  · split at h
    · cases h
    · dsimp only at h
      split at h
      · cases h
      · split at h
        · exact decodable_of_decodeBody (decodeFields_ok h).2.1
        · cases h
        · cases h
  · cases h

/-! ## Storing and reading back -/

theorem Decodable.encodable {p : ScopeProgress DateTime φ} (h : Decodable p) : p.All Encodable :=
  h.utc.imp (fun t ht => ⟨by simp [ht], fun o ho => Or.inl (by rw [ht] at ho; cases ho; rfl)⟩)

theorem Decodable.map_utc {p : ScopeProgress DateTime φ} (h : Decodable p) : p.map DateTime.utc = p := by
  rw [(h.utc.imp (fun t ht => DateTime.utc_of_utc ht)).map_congr (g := id)]
  exact p.map_id

theorem decodable_map_utc {p : ScopeProgress DateTime φ} (h : p.All Encodable) (hceiling : 0 ≤ p.ceilingSuccesses)
    (hdensity : ∀ x ∈ p.recentRowsPerBucket, PyFloat.isfinite x = true) : Decodable (p.map DateTime.utc) := by
  have hutc : ∀ t, Encodable t → t.utc.utcoffset = some 0 := by
    intro t ht
    obtain ⟨o, ho⟩ := Option.isSome_iff_exists.mp ht.1
    exact (DateTime.utc_spec ho ht.2).1
  have hopt : ∀ x : Option DateTime, (∀ t ∈ x, Encodable t) →
      ∀ t ∈ x.map DateTime.utc, t.utcoffset = some 0 := by
    intro x hx t ht
    obtain ⟨t', ht', rfl⟩ := Option.mem_map.mp ht
    exact hutc t' (hx t' ht')
  refine ⟨⟨hutc _ h.targetStart, hutc _ h.startedAt, hopt _ h.floor, hopt _ h.firstEventBucket,
    hopt _ h.through, hopt _ h.scanCursor, ?_⟩, hceiling, hdensity⟩
  intro g hg
  obtain ⟨g', hg', rfl⟩ := List.mem_map.mp hg
  exact ⟨hutc _ (h.gaps g' hg').1, hutc _ (h.gaps g' hg').2⟩

theorem storedProgress_ok {p : ScopeProgress DateTime φ} (h : p.All Encodable)
    (hd : ∀ x ∈ p.recentRowsPerBucket, PyFloat.isfinite x = true) (v : Int) (adapter : JsonObject φ) :
    storedProgress v p adapter = .ok (document v (storedBody v (p.map DateTime.utc)) adapter) := by
  unfold storedProgress
  rw [encodeBody_ok h hd]
  rfl

theorem encodeProgress_ok {p} (h : p.All Encodable)
    (hd : ∀ x ∈ p.recentRowsPerBucket, PyFloat.isfinite x = true) (adapter : JsonObject φ) :
    encodeProgress p adapter = .ok (document 3 (storedBody 3 (p.map DateTime.utc)) adapter) := by
  unfold encodeProgress
  rw [encodeBody_ok h hd]
  rfl

/-- A document that was written is read back exactly if its release counter is not negative. -/
theorem decode_of_encodeProgress {p adapter doc} (h : encodeProgress p adapter = .ok doc) (repr : Json φ → String) :
    p.All Encodable ∧ (decodeProgress repr doc = .ok ⟨p.map DateTime.utc, adapter⟩ ↔ 0 ≤ p.ceilingSuccesses) := by
  obtain ⟨body, hbody, _⟩ := bind_ok h
  have henc := encodable_of_encodeBody hbody
  have hfinite := finite_of_encodeBody hbody
  rw [encodeProgress_ok henc hfinite] at h
  cases h
  refine ⟨henc, fun h => (decodable_of_decodeProgress h).ceiling, fun hceiling => ?_⟩
  exact decodeProgress_stored (Or.inr rfl) (decodable_map_utc henc hceiling hfinite) repr adapter

end QRadarDashboard.History
