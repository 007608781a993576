import QRadarDashboard.Services.Profiles

/-!
# What the profile of a source says of its mapping
-/

namespace QRadarDashboard.Services
open Lib Lib.ReadCommitted

variable {μ ℓ ρ : Type} {settings : ProfileSettings} {family : String}

namespace SourceProfile

variable {V V' : μ → Prop} {loaded current stored p q : SourceProfile μ ℓ ρ}

/-- The part of a profile that only a `PUT` writes. -/
def defined (p : SourceProfile μ ℓ ρ) : Nat × μ := (p.profileVersion, p.mapping)

/-- The version that validated is no later one, and a profile that is valid for its version has a mapping of `V`. -/
def Backed (V : μ → Prop) (p : SourceProfile μ ℓ ρ) : Prop :=
  (∀ version, p.validatedProfileVersion = some version → version ≤ p.profileVersion) ∧
    (p.validationStatus = .valid → p.validatedProfileVersion = some p.profileVersion → V p.mapping)

theorem Backed.mono (h : p.Backed V) (hV : ∀ m, V m → V' m) : p.Backed V' :=
  ⟨h.1, fun hvalid hversion => hV _ (h.2 hvalid hversion)⟩

theorem Backed.congr (h : p.Backed V) (hdefined : q.defined = p.defined)
    (hstatus : q.validationStatus = p.validationStatus)
    (hvalidated : q.validatedProfileVersion = p.validatedProfileVersion) : q.Backed V := by
  obtain ⟨hversion, hmapping⟩ := Prod.mk.inj hdefined
  rw [Backed, hversion, hmapping, hstatus, hvalidated]
  exact h

theorem defined_write (p : SourceProfile μ ℓ ρ) (write : ProfileWrite ρ) : (p.write write).defined = p.defined := by
  cases write with
  | enable enabled actor =>
    rw [SourceProfile.write]
    split_ifs <;> rfl
  | _ => rfl

theorem Backed.write (h : p.Backed V) {write}
    (hresult : ∀ validation now actor, write = .result validation now actor → validation.status = .valid → V p.mapping) :
    (p.write write).Backed V := by
  cases write with
  | result validation now actor =>
    exact ⟨fun version hversion => (Option.some.inj hversion).ge, fun hvalid _ => hresult _ _ _ rfl hvalid⟩
  | enable enabled actor =>
    rw [SourceProfile.write]
    split_ifs
    · exact h
    · exact h.congr rfl rfl rfl
  | _ => exact h.congr rfl rfl rfl

section Flush

variable [Columns μ] [Columns ℓ] [DecidableEq ρ]

theorem flush_loaded : loaded.flush current loaded = current := by
  simp [flush, Columns.flush_loaded]

theorem defined_flush_of_kept (h : current.defined = loaded.defined) :
    (loaded.flush current stored).defined = stored.defined := by
  obtain ⟨hversion, hmapping⟩ := Prod.mk.inj h
  simp [defined, flush, hversion, hmapping, Columns.flush_self]

theorem defined_flush (h : stored.defined = loaded.defined) :
    (loaded.flush current stored).defined = current.defined := by
  obtain ⟨hversion, hmapping⟩ := Prod.mk.inj h
  simp [defined, flush, hversion, hmapping, Columns.flush_loaded]

end Flush

end SourceProfile

theorem valid_of_eligible {p : SourceProfile μ ℓ ρ}
    (h : (∃ enabled monitoring, collectionIneligibility enabled monitoring p = none) ∨
      ∃ monitoring, ipsIneligibility monitoring p = none) :
    p.validationStatus = .valid ∧ p.validatedProfileVersion = some p.profileVersion := by
  rcases h with ⟨enabled, monitoring, h⟩ | ⟨monitoring, h⟩
  · cases enabled <;> cases monitoring <;> simp only [collectionIneligibility] at h
    all_goals grind
  · rw [ipsIneligibility] at h
    split_ifs at h with _ _ hversion hstatus
    exact ⟨not_not.mp hstatus, not_not.mp hversion⟩

/-! ## Where a transaction stands -/

/-- What a `PUT` makes of the profile it read: the same version of the same mapping, or the next version. -/
structure Upserted (loaded upserted : SourceProfile μ ℓ ρ) : Prop where
  validated : upserted.validatedProfileVersion = loaded.validatedProfileVersion
  defined : upserted.defined = loaded.defined ∧ upserted.validationStatus = loaded.validationStatus ∨
    upserted.profileVersion = loaded.profileVersion + 1

def ProfileWrite.Requests : Option (ProfileWrite ρ) → Prop
  | none | some (.request _ _) => True
  | _ => False

/-- Where a `PUT` that has read `stored` goes. -/
inductive PutStep : Option (SourceProfile μ ℓ ρ) → ProfileTx μ ℓ ρ → Prop
  | refused {stored} (e : ProfileRefusal) : PutStep stored (.refused e)
  | unchanged {stored} : PutStep stored .unchanged
  | inserting (p : SourceProfile μ ℓ ρ) (hnew : p.validatedProfileVersion = none) : PutStep none (.inserting p)
  | updating {p upserted : SourceProfile μ ℓ ρ} (h : Upserted p upserted) (write : Option (ProfileWrite ρ))
      (hwrite : ProfileWrite.Requests write) : PutStep (some p) (.updating p upserted write)

section Put

variable [DecidableEq μ] [DecidableEq ℓ]

theorem upserted_upsert (p : SourceProfile μ ℓ ρ) (mapping : μ) (metadata : ℓ) (actor : String) :
    Upserted p (p.upsert mapping metadata actor) := by
  rw [SourceProfile.upsert]
  split_ifs with hsame hmapping
  · exact ⟨rfl, Or.inl ⟨rfl, rfl⟩⟩
  · exact ⟨rfl, Or.inl ⟨rfl, rfl⟩⟩
  · exact ⟨rfl, Or.inr rfl⟩

theorem putProfile_step (body : ProfileIn μ ℓ) (stored : Option (SourceProfile μ ℓ ρ)) :
    PutStep stored (putProfile settings body stored) := by
  cases stored with
  | none =>
    rw [putProfile]
    split
    · exact .refused _
    · split
      · exact .refused _
      · exact .inserting _ rfl
  | some p =>
    rw [putProfile]
    split
    · exact .refused _
    · split
      · exact .refused _
      · dsimp only
        split
        · split
          · exact .unchanged
          · exact .updating (upserted_upsert _ _ _ _) _ trivial
        · split
          · exact .refused _
          · exact .updating (upserted_upsert _ _ _ _) _ trivial

end Put

/-- Where a task that has read `stored` goes. -/
inductive TaskStep (task : ValidationTask μ ρ) : Option (SourceProfile μ ℓ ρ) → ProfileTx μ ℓ ρ → Prop
  | ended {stored} (status : TaskStatus) : TaskStep task stored (.ended status)
  | failed (p : SourceProfile μ ℓ ρ) : TaskStep task (some p) (.locking (.failed p))
  | sourceBusy (p : SourceProfile μ ℓ ρ) : TaskStep task (some p) (.locking (.sourceBusy p))
  | checked (p : SourceProfile μ ℓ ρ) {validation : ProfileValidation ρ} (h : task.validate p.mapping = .ok validation) :
      TaskStep task (some p) (.locking (.checked p validation task.now))

theorem runTask_step (task : ValidationTask μ ρ) (stored : Option (SourceProfile μ ℓ ρ)) :
    TaskStep task stored (runTask settings task stored) := by
  cases stored with
  | none => exact .ended _
  | some p =>
    rw [runTask]
    split
    · exact .ended _
    · split
      · exact .failed p
      · split
        · split
          · exact .ended _
          · exact .sourceBusy p
        · split
          · exact .failed p
          · next validation h => exact .checked p h

/-- Where a transaction that has locked the row goes: a result is saved only in the version it is about. -/
inductive WorkStep (work : ProfileWork μ ℓ ρ) : Option (SourceProfile μ ℓ ρ) → ProfileTx μ ℓ ρ → Prop
  | refused {stored} (e : ProfileRefusal) : WorkStep work stored (.refused e)
  | ended {stored} (status : TaskStatus) : WorkStep work stored (.ended status)
  | saving (p : SourceProfile μ ℓ ρ) (write : ProfileWrite ρ)
      (h : ∀ validation now actor, write = .result validation now actor →
        ∃ read, work = .checked read validation now ∧ p.profileVersion = read.profileVersion) :
      WorkStep work (some p) (.saving p write)

theorem settleTask_step {work} {read p : SourceProfile μ ℓ ρ} {write}
    (h : ∀ validation now actor, write = .result validation now actor → work = .checked read validation now) :
    WorkStep work (some p) (settleTask read p write) := by
  rw [settleTask]
  split
  · exact .ended _
  · next hversion => exact .saving p write (fun _ _ _ hw => ⟨read, h _ _ _ hw, not_not.mp hversion⟩)

theorem settleWork_step (work : ProfileWork μ ℓ ρ) (stored : Option (SourceProfile μ ℓ ρ)) :
    WorkStep work stored (settleWork settings family work stored) := by
  cases stored with
  | none =>
    cases work with
    | validate now actor | setEnabled enabled actor => exact .refused _
    | failed read | sourceBusy read | checked read validation now => exact .ended _
  | some p =>
    cases work with
    | validate now actor | setEnabled enabled actor =>
      rw [settleWork]
      split
      · exact .refused _
      · exact .saving p _ nofun
    | failed read => exact settleTask_step nofun
    | sourceBusy read =>
      rw [settleWork]
      split
      · exact .ended _
      · exact settleTask_step nofun
    | checked read validation now =>
      refine settleTask_step ?_
      rintro _ _ _ ⟨⟩
      rfl

/-- What is so of a transaction, where `S` are the profiles that were stored so far, and `V` the validated mappings. -/
def ProfileTx.Sound (V : μ → Prop) (S : SourceProfile μ ℓ ρ → Prop) : ProfileTx μ ℓ ρ → Prop
  | .inserting p => p.validatedProfileVersion = none
  | .updating loaded upserted write | .updated loaded upserted write => Upserted loaded upserted ∧ ProfileWrite.Requests write
  | .locking (.checked p validation _) => S p ∧ (validation.status = .valid → V p.mapping)
  | .saving loaded write =>
    ∀ validation now actor, write = .result validation now actor → validation.status = .valid → V loaded.mapping
  | _ => True

section Sound

variable {V V' : μ → Prop} {S S' : SourceProfile μ ℓ ρ → Prop}

theorem ProfileTx.Sound.mono {tx : ProfileTx μ ℓ ρ} (h : tx.Sound V S) (hV : ∀ m, V m → V' m) (hS : ∀ p, S p → S' p) :
    tx.Sound V' S' := by
  cases tx with
  | locking work =>
    cases work with
    | checked p validation now => exact ⟨hS _ h.1, fun hvalid => hV _ (h.2 hvalid)⟩
    | _ => trivial
  | saving loaded write => exact fun validation now actor hwrite hvalid => hV _ (h validation now actor hwrite hvalid)
  | _ => exact h

theorem PutStep.sound {stored tx} (h : PutStep stored tx) : tx.Sound V S := by
  cases h with
  | inserting p hnew => exact hnew
  | updating h write hwrite => exact ⟨h, hwrite⟩
  | _ => trivial

theorem TaskStep.sound {task stored tx} (h : TaskStep task stored tx) (hS : ∀ p, stored = some p → S p)
    (hV : ∀ p validation, stored = some p → tx = .locking (.checked p validation task.now) →
      task.validate p.mapping = .ok validation → validation.status = .valid → V p.mapping) : tx.Sound V S := by
  cases h with
  | checked p hvalidate => exact ⟨hS p rfl, hV p _ rfl rfl hvalidate⟩
  | _ => trivial

/-- A task that finds the version it read finds the mapping it probed, as a version names one mapping. -/
theorem WorkStep.sound {work stored tx} (h : WorkStep work stored tx) (hwork : (ProfileTx.locking work).Sound V S)
    (hsame : ∀ read p, stored = some p → S read → p.profileVersion = read.profileVersion → p.mapping = read.mapping) :
    tx.Sound V S := by
  cases h with
  | saving p write hresult =>
    intro validation now actor hwrite hvalid
    obtain ⟨read, rfl, hversion⟩ := hresult validation now actor hwrite
    rw [hsame read p rfl hwork.1 hversion]
    exact hwork.2 hvalid
  | _ => trivial

end Sound

/-! ## The locks -/

/-- What the log source guards is the definition of its profile. -/
inductive ProfileView (μ ℓ ρ : Type) where
  | guarded (defined : Option (Nat × μ))
  | row (p : SourceProfile μ ℓ ρ)

def profileRow (store : ProfileStore μ ℓ ρ) : ProfileKey → Option (ProfileView μ ℓ ρ)
  | .source => if store.logSource then some (.guarded (store.profile.map SourceProfile.defined)) else none
  | .profile => store.profile.map .row

def ProfileTx.owned : ProfileTx μ ℓ ρ → Set ProfileKey
  | .sourceLocked _ | .inserting _ | .updating _ _ _ => {.source}
  | .updated _ _ _ => {.source, .profile}
  | .saving _ _ => {.profile}
  | _ => ∅

def ProfileTx.Knows : ProfileTx μ ℓ ρ → ProfileKey → Option (ProfileView μ ℓ ρ) → Prop
  | .sourceLocked _, .source, view => view.isSome = true
  | .inserting _, .source, view => view = some (.guarded none)
  | .updating loaded _ _, .source, view | .updated loaded _ _, .source, view =>
    view = some (.guarded (some loaded.defined))
  | .saving loaded _, .profile, view => view = some (.row loaded)
  | _, _, _ => True

theorem guarded_of_isSome {store : ProfileStore μ ℓ ρ} (h : (profileRow store .source).isSome = true) :
    profileRow store .source = some (.guarded (store.profile.map SourceProfile.defined)) := by
  cases hsource : store.logSource with
  | true => exact if_pos hsource
  | false => simp [profileRow, hsource] at h

/-! ## What a commit leaves -/

/-- The same version of the same mapping, or the next version; no unvalidated mapping becomes valid. -/
structure Moved (V : μ → Prop) (p q : SourceProfile μ ℓ ρ) : Prop where
  backed : p.Backed V → q.Backed V
  defined : q.defined = p.defined ∨ q.profileVersion = p.profileVersion + 1

theorem Moved.trans {p q r : SourceProfile μ ℓ ρ} (h : Moved V p q) (h' : Moved V q r) (hr : r.defined = q.defined) :
    Moved V p r := by
  refine ⟨fun hb => h'.backed (h.backed hb), ?_⟩
  rcases h.defined with hdefined | hnext
  · exact Or.inl (hr.trans hdefined)
  · exact Or.inr ((Prod.mk.inj hr).1.trans hnext)

section Commit

variable [Columns μ] [Columns ℓ] [DecidableEq ρ] {V : μ → Prop} {S : SourceProfile μ ℓ ρ → Prop}

theorem moved_saved {loaded write}
    (h : (ProfileTx.saving loaded write).Sound V S) : Moved V loaded (loaded.flush (loaded.write write) loaded) := by
  rw [SourceProfile.flush_loaded]
  exact ⟨fun hb => hb.write h, Or.inl (loaded.defined_write write)⟩

theorem moved_requested {upserted stored : SourceProfile μ ℓ ρ} {write}
    (h : ProfileWrite.Requests (some write)) : Moved V stored (upserted.flush (upserted.write write) stored) := by
  have hdefined : (upserted.flush (upserted.write write) stored).defined = stored.defined :=
    SourceProfile.defined_flush_of_kept (upserted.defined_write write)
  cases write with
  | request now actor => exact ⟨fun hb => hb.congr hdefined (written_self _ _) (written_self _ _), Or.inl hdefined⟩
  | _ => cases h

theorem moved_upserted {loaded upserted stored : SourceProfile μ ℓ ρ} (h : Upserted loaded upserted)
    (hstored : stored.defined = loaded.defined) : Moved V stored (loaded.flush upserted stored) := by
  have hdefined : (loaded.flush upserted stored).defined = upserted.defined := SourceProfile.defined_flush hstored
  have hvalidated : (loaded.flush upserted stored).validatedProfileVersion = stored.validatedProfileVersion := by
    rw [SourceProfile.flush, h.validated]
    exact written_self _ _
  rcases h.defined with ⟨hsame, hstatus⟩ | hnext
  · have hkept := hdefined.trans (hsame.trans hstored.symm)
    refine ⟨fun hb => hb.congr hkept ?_ hvalidated, Or.inl hkept⟩
    rw [SourceProfile.flush, hstatus]
    exact written_self _ _
  · have hversion : (loaded.flush upserted stored).profileVersion = stored.profileVersion + 1 := by
      rw [(Prod.mk.inj hdefined).1, hnext, (Prod.mk.inj hstored).1]
    refine ⟨fun hb => ⟨fun version h => ?_, fun _ h => ?_⟩, Or.inr hversion⟩
    · have hle := hb.1 version (hvalidated.symm.trans h)
      omega
    · have hle := hb.1 _ (hvalidated.symm.trans h)
      omega

variable [DecidableEq μ] [DecidableEq ℓ]

theorem moved_commit {tx : ProfileTx μ ℓ ρ} {store} {f : ProfileStore μ ℓ ρ → ProfileStore μ ℓ ρ}
    (hnext : profileNext settings family tx = .commit f) (hsound : tx.Sound V S)
    (hknown : ∀ k ∈ tx.owned, tx.Knows k (profileRow store k)) :
    (store.profile = none ∧ ∀ q, (f store).profile = some q → q.Backed V) ∨
      ∃ p q, store.profile = some p ∧ (f store).profile = some q ∧ Moved V p q := by
  cases tx with
  | inserting p =>
    cases hnext
    cases hp : store.profile with
    | none =>
      refine Or.inl ⟨rfl, fun q hq => ?_⟩
      obtain rfl : p = q := by simpa [hp] using hq
      have hnone : p.validatedProfileVersion = none := hsound
      exact ⟨fun version h => by simp [hnone] at h, fun _ h => by simp [hnone] at h⟩
    | some q =>
      have hrow : profileRow store .source = some (.guarded none) := hknown .source rfl
      rw [guarded_of_isSome (by rw [hrow]; rfl), hp] at hrow
      cases hrow
  | updated loaded upserted write =>
    cases hnext
    have hrow : profileRow store .source = some (.guarded (some loaded.defined)) := hknown .source (Or.inl rfl)
    rw [guarded_of_isSome (by rw [hrow]; rfl)] at hrow
    obtain ⟨p, hp, hdefined⟩ := Option.map_eq_some_iff.mp (ProfileView.guarded.inj (Option.some.inj hrow))
    have hmoved : Moved V p (loaded.flush upserted p) := moved_upserted hsound.1 hdefined
    refine Or.inr ⟨p, _, hp, by simp only [hp]; rfl, ?_⟩
    cases write with
    | none => exact hmoved
    | some write =>
      exact hmoved.trans (moved_requested hsound.2) (SourceProfile.defined_flush_of_kept (upserted.defined_write write))
  | saving loaded write =>
    cases hnext
    have hrow : profileRow store .profile = some (.row loaded) := hknown .profile rfl
    obtain ⟨p, hp, hpl⟩ := Option.map_eq_some_iff.mp hrow
    cases hpl
    exact Or.inr ⟨loaded, _, hp, by simp only [hp]; rfl, moved_saved hsound⟩
  | _ => cases hnext

end Commit

/-! ## Runs -/

section Runs

variable {τ : Type}

abbrev ProfileDb (μ ℓ ρ τ : Type) := Db (ProfileStore μ ℓ ρ) ProfileKey τ (ProfileTx μ ℓ ρ)

abbrev ProfileTaken (μ ℓ ρ τ : Type) :=
  Taken (ProfileDb μ ℓ ρ τ) (Move τ (ProfileRequest μ ℓ ρ)) (ProfileDb μ ℓ ρ τ)

/-- A task read the mapping and probed it, and goes on with a result that is valid. -/
def Validated (tr : List (ProfileTaken μ ℓ ρ τ)) (m : μ) : Prop :=
  ∃ e ∈ tr, ∃ t task p validation, e.input = .advance t ∧ e.before.session t = some (.task task) ∧
    e.before.committed.profile = some p ∧ p.mapping = m ∧ task.validate m = .ok validation ∧ validation.status = .valid ∧
    e.output.session t = some (.locking (.checked p validation task.now))

def Stored (tr : List (ProfileTaken μ ℓ ρ τ)) (p : SourceProfile μ ℓ ρ) : Prop :=
  ∃ e ∈ tr, e.output.committed.profile = some p

variable {tr : List (ProfileTaken μ ℓ ρ τ)} {db db' : ProfileDb μ ℓ ρ τ} {e : ProfileTaken μ ℓ ρ τ}

theorem Validated.snoc {m} (h : Validated tr m) : Validated (tr ++ [e]) m := by
  obtain ⟨e', he, h⟩ := h
  exact ⟨e', List.mem_append_left _ he, h⟩

theorem Stored.snoc {p} (h : Stored tr p) : Stored (tr ++ [e]) p := by
  obtain ⟨e', he, h⟩ := h
  exact ⟨e', List.mem_append_left _ he, h⟩

theorem stored_snoc_iff {p} : Stored (tr ++ [e]) p ↔ Stored tr p ∨ e.output.committed.profile = some p := by
  simp [Stored, or_and_right, exists_or]

variable [Columns μ] [DecidableEq μ] [Columns ℓ] [DecidableEq ℓ] [DecidableEq ρ] [DecidableEq τ]

def profileDiscipline (settings : ProfileSettings) (family : String) :
    Discipline (profileRow (μ := μ) (ℓ := ℓ) (ρ := ρ)) ProfileRequest.enter (profileNext settings family) where
  owned := ProfileTx.owned
  Knows := ProfileTx.Knows
  enter := by rintro (_ | _ | _ | _) <;> rfl
  read := by
    intro tx f hnext store k hk
    cases tx with
    | sourceLocked body =>
      cases hnext
      dsimp only at hk ⊢
      have hstep : PutStep store.profile (putProfile settings body store.profile) := putProfile_step body _
      generalize hstored : store.profile = stored at hstep hk ⊢
      generalize putProfile settings body stored = tx at hstep hk ⊢
      cases hstep with
      | inserting p hnew | updating h write hwrite =>
        obtain rfl : k = .source := hk
        exact ⟨rfl, fun h => (guarded_of_isSome h).trans (by rw [hstored]; rfl)⟩
      | _ => cases hk
    | task task =>
      cases hnext
      dsimp only at hk
      have hstep : TaskStep task store.profile (runTask settings task store.profile) := runTask_step task _
      generalize runTask settings task store.profile = tx at hstep hk
      generalize store.profile = stored at hstep
      cases hstep <;> cases hk
    | _ => cases hnext
  lock := by
    intro tx key f hnext store k hk
    cases tx with
    | put body =>
      cases hnext
      dsimp only at hk ⊢
      split_ifs at hk ⊢ with hthere
      · obtain rfl : k = .source := hk
        have hrow : (profileRow store .source).isSome = true := by simp [profileRow, hthere]
        exact Or.inr ⟨rfl, hrow, hrow⟩
      · cases hk
    | updating loaded upserted write =>
      cases hnext
      dsimp only at hk ⊢
      split_ifs at hk ⊢ with hthere
      · rcases hk with rfl | rfl
        · exact Or.inl ⟨rfl, fun h => h⟩
        · exact Or.inr ⟨rfl, by simpa [profileRow] using hthere, trivial⟩
      · cases hk
    | locking work =>
      cases hnext
      dsimp only at hk ⊢
      have hstep : WorkStep work store.profile (settleWork settings family work store.profile) := settleWork_step work _
      generalize hstored : store.profile = stored at hstep hk ⊢
      generalize settleWork settings family work stored = tx at hstep hk ⊢
      cases hstep with
      | saving p write h =>
        obtain rfl : k = .profile := hk
        have hrow : profileRow store .profile = some (.row p) := by simp [profileRow, hstored]
        exact Or.inr ⟨rfl, by rw [hrow]; rfl, hrow⟩
      | _ => cases hk
    | _ => cases hnext
  commit := by
    intro tx f hnext store k hk hrow
    cases tx with
    | inserting p =>
      cases hnext
      cases k with
      | source => exact absurd rfl hk
      | profile =>
        rw [profileRow, Option.isSome_map] at hrow
        obtain ⟨q, hq⟩ := Option.isSome_iff_exists.mp hrow
        simp [profileRow, hq]
    | updated loaded upserted write =>
      cases k with
      | source => exact absurd (Or.inl rfl) hk
      | profile => exact absurd (Or.inr rfl) hk
    | saving loaded write =>
      cases hnext
      cases k with
      | source =>
        have hsame : SourceProfile.defined ∘ loaded.flush (loaded.write write) = SourceProfile.defined :=
          funext fun stored => SourceProfile.defined_flush_of_kept (loaded.defined_write write)
        simp only [profileRow, Option.map_map, hsame]
      | profile => exact absurd rfl hk
    | _ => cases hnext

structure ProfileInv (settings : ProfileSettings) (family : String) (tr : List (ProfileTaken μ ℓ ρ τ))
    (db : ProfileDb μ ℓ ρ τ) : Prop where
  disciplined : (profileDiscipline settings family).Inv db
  sound : ∀ t tx, db.session t = some tx → tx.Sound (Validated tr) (Stored tr)
  stored : ∀ p, db.committed.profile = some p → Stored tr p ∧ p.Backed (Validated tr)
  latest : ∀ p, Stored tr p → ∃ q, db.committed.profile = some q ∧ p.profileVersion ≤ q.profileVersion
  named : ∀ p q, Stored tr p → Stored tr q → p.profileVersion = q.profileVersion → p.mapping = q.mapping

/-- Where a transaction stands after a step, when the committed profile is what it was. -/
theorem ProfileInv.sound_step {move} (h : ProfileInv settings family tr db)
    (hstep : db.step profileRow ProfileRequest.enter (profileNext settings family) move = .ok db') :
    ∀ t tx, db'.session t = some tx →
      tx.Sound (Validated (tr ++ [⟨db, move, db'⟩])) (Stored (tr ++ [⟨db, move, db'⟩])) := by
  intro u tx hu
  have hkept : ∀ {tx : ProfileTx μ ℓ ρ}, tx.Sound (Validated tr) (Stored tr) →
      tx.Sound (Validated (tr ++ [⟨db, move, db'⟩])) (Stored (tr ++ [⟨db, move, db'⟩])) :=
    fun hs => hs.mono (fun _ => Validated.snoc) (fun _ => Stored.snoc)
  cases move with
  | start t request =>
    rw [step_start hstep] at hu
    by_cases hut : u = t
    · subst hut
      obtain rfl : request.enter = tx := by simpa using hu
      cases request <;> trivial
    · exact hkept (h.sound u tx (by simpa [Function.update_of_ne hut] using hu))
  | advance t =>
    obtain ⟨a, hsession, hperform⟩ := step_advance hstep
    by_cases hut : u = t
    · subst hut
      have ha := h.sound u a hsession
      rcases (perform_self hperform hu).1 with ⟨f, hnext, rfl⟩ | ⟨k, f, hnext, rfl⟩
      · cases a with
        | sourceLocked body =>
          cases hnext
          exact (putProfile_step body _).sound
        | task task =>
          cases hnext
          refine (runTask_step task _).sound (fun p hp => ((h.stored p hp).1).snoc) ?_
          intro p validation hp hchecked hvalidate hvalid
          exact ⟨⟨db, .advance u, db'⟩, by simp, u, task, p, validation, rfl, hsession, hp, rfl, hvalidate, hvalid,
            hchecked ▸ hu⟩
        | _ => cases hnext
      · cases a with
        | put body =>
          cases hnext
          dsimp only
          split <;> trivial
        | updating loaded upserted write =>
          cases hnext
          dsimp only
          split
          · exact ha
          · trivial
        | locking work =>
          cases hnext
          refine hkept ((settleWork_step work _).sound ha (fun read p hp hread hversion => ?_))
          exact h.named p read (h.stored p hp).1 hread hversion
        | _ => cases hnext
    · rw [perform_session_of_ne hut hperform] at hu
      exact hkept (h.sound u tx hu)

theorem ProfileInv.step {move} (h : ProfileInv settings family tr db)
    (hstep : db.step profileRow ProfileRequest.enter (profileNext settings family) move = .ok db') :
    ProfileInv settings family (tr ++ [⟨db, move, db'⟩]) db' := by
  have hmoved : db'.committed.profile = db.committed.profile ∨
      (db.committed.profile = none ∧ ∀ q, db'.committed.profile = some q → q.Backed (Validated tr)) ∨
      ∃ p q, db.committed.profile = some p ∧ db'.committed.profile = some q ∧ Moved (Validated tr) p q := by
    rcases committed_step hstep with hsame | ⟨t, tx, f, -, hsession, hnext, hf⟩
    · exact Or.inl (by rw [hsame])
    · rw [hf]
      exact Or.inr (moved_commit hnext (h.sound t tx hsession)
        (fun k hk => (h.disciplined t tx hsession k hk).2.2))
  have hbacked : ∀ q, db'.committed.profile = some q → q.Backed (Validated tr) := by
    intro q hq
    rcases hmoved with hsame | ⟨-, hnew⟩ | ⟨p, q', hp, hq', hmove⟩
    · exact (h.stored q (hsame ▸ hq)).2
    · exact hnew q hq
    · obtain rfl := Option.some.inj (hq'.symm.trans hq)
      exact hmove.backed (h.stored p hp).2
  have hlatest : ∀ p, Stored tr p → ∃ q, db'.committed.profile = some q ∧ p.profileVersion ≤ q.profileVersion ∧
      (p.profileVersion = q.profileVersion → p.mapping = q.mapping) := by
    intro p hp
    obtain ⟨q, hq, hle⟩ := h.latest p hp
    have hsamepq := h.named p q hp (h.stored q hq).1
    rcases hmoved with hsame | ⟨hnone, -⟩ | ⟨q', r, hq', hr, hmove⟩
    · exact ⟨q, hsame.trans hq, hle, hsamepq⟩
    · rw [hnone] at hq
      cases hq
    · obtain rfl := Option.some.inj (hq'.symm.trans hq)
      refine ⟨r, hr, ?_⟩
      rcases hmove.defined with hdefined | hnext
      · obtain ⟨hversion, hmapping⟩ := Prod.mk.inj hdefined
        rw [hversion, hmapping]
        exact ⟨hle, hsamepq⟩
      · exact ⟨by omega, fun heq => by omega⟩
  refine ⟨Discipline.inv_step h.disciplined hstep, h.sound_step hstep, fun p hp => ?_, fun p hp => ?_, fun p q hp hq => ?_⟩
  · exact ⟨stored_snoc_iff.mpr (Or.inr hp), (hbacked p hp).mono (fun _ => Validated.snoc)⟩
  · rcases stored_snoc_iff.mp hp with hp | hp
    · obtain ⟨q, hq, hle, -⟩ := hlatest p hp
      exact ⟨q, hq, hle⟩
    · exact ⟨p, hp, le_rfl⟩
  · rcases stored_snoc_iff.mp hp with hp | hp <;> rcases stored_snoc_iff.mp hq with hq | hq
    · exact h.named p q hp hq
    · obtain ⟨r, hr, -, hsame⟩ := hlatest p hp
      obtain rfl := Option.some.inj (hr.symm.trans hq)
      exact hsame
    · obtain ⟨r, hr, -, hsame⟩ := hlatest q hq
      obtain rfl := Option.some.inj (hr.symm.trans hp)
      exact fun heq => (hsame heq.symm).symm
    · obtain rfl := Option.some.inj (hp.symm.trans hq)
      exact fun _ => rfl

theorem profileInv_of_steps {logSource}
    (h : Steps profileRow ProfileRequest.enter (profileNext settings family) ⟨logSource, none⟩ tr db) :
    ProfileInv settings family tr db := by
  refine h.invariant' (ProfileInv settings family) ?_ (fun hI hs => hI.step hs)
  exact ⟨fun _ _ hopen => by simp [Db.quiet] at hopen, fun _ _ hopen => by simp [Db.quiet] at hopen,
    fun _ hp => by simp [Db.quiet] at hp, by simp [Stored], by simp [Stored]⟩

end Runs

end QRadarDashboard.Services
