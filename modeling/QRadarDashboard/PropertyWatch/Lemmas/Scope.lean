import QRadarDashboard.PropertyWatch.Scope

/-! What a resolved group scope holds, and which buckets are flagged after a change. -/
namespace QRadarDashboard.PropertyWatch
open Lib Detectors

/-! ## The groups -/

def ChildOf (groups : Dict Int GroupRow) (parent child : Int) : Prop :=
  ∃ item ∈ groups, item.2.parentQradarId = some parent ∧ item.2.qradarId = child

theorem link_iff_childOf {groups parent child} :
    (childLinks groups).Link parent child ↔ ChildOf groups parent child := by
  show child ∈ childrenOf groups parent ↔ _
  rw [childrenOf, mem_sortOn, List.mem_map]
  constructor
  · rintro ⟨item, hitem, rfl⟩
    obtain ⟨hmem, hparent⟩ := List.mem_filter.mp hitem
    exact ⟨item, hmem, of_decide_eq_true hparent, rfl⟩
  · rintro ⟨item, hmem, hparent, rfl⟩
    exact ⟨item, List.mem_filter.mpr ⟨hmem, decide_eq_true hparent⟩, rfl⟩

theorem groupAndDescendants_spec (groupId : Int) (groups : Dict Int GroupRow) :
    (groupAndDescendants groupId groups).Nodup ∧
      ∀ g, g ∈ groupAndDescendants groupId groups ↔ Relation.ReflTransGen (ChildOf groups) groupId g := by
  obtain ⟨hnodup, hmem⟩ := (childLinks groups).walk_spec groupId
  have hlink : (childLinks groups).Link = ChildOf groups := by
    funext parent child
    exact propext link_iff_childOf
  exact ⟨hnodup, fun g => by rw [← hlink]; exact hmem g⟩

/-! ## The chunks -/

theorem flatten_runsOf (n : Nat) (ids : List Int) : (runsOf n ids).flatten = ids := by
  induction ids using runsOf.induct n with
  | case1 => simp [runsOf]
  | case2 i rest ih => rw [runsOf, List.flatten_cons, ih, List.cons_append, List.take_append_drop]

theorem mem_runsOf {n ids chunk} (h : chunk ∈ runsOf n ids) : chunk ≠ [] ∧ chunk.length ≤ n + 1 := by
  induction ids using runsOf.induct n with
  | case1 => simp [runsOf] at h
  | case2 i rest ih =>
    rw [runsOf] at h
    rcases List.mem_cons.mp h with rfl | h
    · exact ⟨List.cons_ne_nil _ _, by simp⟩
    · exact ih h

theorem chunkIds_spec {ids size chunks} (h : chunkIds ids size = .ok chunks) :
    chunks.flatten = ids ∧ ∀ chunk ∈ chunks, chunk ≠ [] ∧ (chunk.length : Int) ≤ size := by
  rw [chunkIds] at h
  split at h
  · cases h
  · cases h
    refine ⟨flatten_runsOf _ _, fun chunk hchunk => ?_⟩
    obtain ⟨hne, hlength⟩ := mem_runsOf hchunk
    exact ⟨hne, by omega⟩

/-! ## The members -/

theorem mem_memberIds {walked sources q} :
    q ∈ memberIds (memberRows walked sources) ↔ ∃ s ∈ sources, s.qradarId = q ∧ ∃ g ∈ s.groupIds, g ∈ walked := by
  simp only [memberIds, memberRows, mem_sortOn, List.mem_dedup, List.mem_map, List.mem_filter, List.any_eq_true,
    decide_eq_true_eq]
  exact exists_congr (fun s => by rw [and_assoc]; exact and_congr_right (fun _ => and_comm))

theorem pairwise_memberIds (members : List SourceRow) : (memberIds members).Pairwise (· < ·) :=
  pairwise_lt_sortOn (by simpa using List.nodup_dedup _)

theorem fingerprintInput_congr {ids ids'} (h : ∀ q, q ∈ ids ↔ q ∈ ids') :
    fingerprintInput ids = fingerprintInput ids' := by
  have hperm : ids.dedup.Perm ids'.dedup :=
    (List.perm_ext_iff_of_nodup (List.nodup_dedup _) (List.nodup_dedup _)).mpr (fun q => by simpa using h q)
  rw [fingerprintInput, fingerprintInput, sortOn_eq_of_perm hperm (fun a _ b _ hab => hab)]

structure GroupResolved (sha256 : String → String) (args : ScopeArgs) (groupId : Int) (scope : ResolvedScope) : Prop where
  increasing : scope.chunks.flatten.Pairwise (· < ·)
  members : ∀ q, q ∈ scope.chunks.flatten ↔
    ∃ s ∈ args.sources, s.qradarId = q ∧ ∃ g ∈ s.groupIds, Relation.ReflTransGen (ChildOf args.groups) groupId g
  chunks : ∀ chunk ∈ scope.chunks, chunk ≠ [] ∧ (chunk.length : Int) ≤ args.maxSources
  searches : (scope.chunks.length : Int) ≤ args.maxChunks
  /-- Equal sets of ids have equal fingerprints. -/
  fingerprint : ∀ ids, (∀ q, q ∈ ids ↔ q ∈ scope.chunks.flatten) → scope.fingerprint = some (sha256 (fingerprintInput ids))

theorem resolveGroup_resolved {sha256 : String → String} {args groupId own scope}
    (h : resolveGroup sha256 args groupId own = .ok scope) (hstatus : scope.status = none) :
    GroupResolved sha256 args groupId scope := by
  set ids := memberIds (memberRows (groupAndDescendants groupId args.groups) args.sources) with hids
  simp only [resolveGroup, ← hids, pure, Except.pure] at h
  split at h
  · cases h
    cases hstatus
  · split at h
    · cases h
      cases hstatus
    · cases hchunks : chunkIds ids args.maxSources with
      | error e =>
        rw [hchunks] at h
        cases h
      | ok chunks =>
        obtain ⟨hflat, hsizes⟩ := chunkIds_spec hchunks
        simp only [hchunks, bind, Except.bind] at h
        split at h
        · cases h
          cases hstatus
        · rename_i hlimit
          cases h
          refine ⟨?_, fun q => ?_, hsizes, not_lt.mp hlimit, fun ids' hids' => ?_⟩
          · rw [hflat]
            exact pairwise_memberIds _
          · rw [hflat, hids, mem_memberIds]
            simp only [(groupAndDescendants_spec groupId args.groups).2]
          · rw [hflat] at hids'
            exact congrArg (fun text => some (sha256 text)) (fingerprintInput_congr hids').symm

theorem resolveScope_group {sha256 : String → String} {args groupId scope}
    (hgroup : args.groupId = some groupId) (h : resolveScope sha256 .logSourceGroup args = .ok scope)
    (hstatus : scope.status = none) : GroupResolved sha256 args groupId scope := by
  rw [resolveScope] at h
  split at h
  · cases h
  · simp only [hgroup] at h
    split at h
    · cases h
      cases hstatus
    · exact resolveGroup_resolved h hstatus

/-! ## The last change -/

section Flags

variable {grace : Nat}

def sinceChange : List (Option String) → Option Nat
  | [] => none
  | [_] => none
  | newest :: before :: rest => if newest ≠ before then some 0 else (sinceChange (before :: rest)).map (· + 1)

theorem sinceChange_ne {newest before rest} (h : newest ≠ before) :
    sinceChange (newest :: before :: rest) = some 0 := by rw [sinceChange, if_pos h]

theorem sinceChange_self {newest rest} :
    sinceChange (newest :: newest :: rest) = (sinceChange (newest :: rest)).map (· + 1) := by
  rw [sinceChange, if_neg (not_not.mpr rfl)]

def due (grace : Nat) (past : List (Option String)) : Bool := (sinceChange past).any (· ≤ grace)

def dueRun (grace : Nat) (past : List (Option String)) : Nat :=
  match sinceChange past with
  | none => 0
  | some d => if d ≤ grace then d + 1 else 0

def FlaggedAsDue (grace : Nat) : List ScopeRecord → Prop
  | [] => True
  | record :: rest =>
    record.scopeChanged = due grace ((record :: rest).map ScopeRecord.fingerprint) ∧ FlaggedAsDue grace rest

theorem length_takeWhile_flagged {record rest} (h : FlaggedAsDue grace (record :: rest)) {d}
    (hd : sinceChange ((record :: rest).map ScopeRecord.fingerprint) = some d) (hgrace : d ≤ grace) {n} (hn : d < n) :
    (((record :: rest).take n).takeWhile
      (fun r => r.scopeChanged && r.fingerprint = record.fingerprint)).length = d + 1 := by
  induction rest generalizing record d n with
  | nil => cases hd
  | cons before rest ih =>
    obtain ⟨hflag, hrest⟩ := h
    obtain ⟨n, rfl⟩ : ∃ m, n = m + 1 := ⟨n - 1, by omega⟩
    have hdue : record.scopeChanged = true := by
      rw [hflag, due, hd]
      exact decide_eq_true hgrace
    rw [List.take_succ_cons, List.takeWhile_cons_of_pos (by simp [hdue]), List.length_cons, Nat.add_right_cancel_iff]
    simp only [List.map_cons] at hd
    by_cases hsame : record.fingerprint = before.fingerprint
    · rw [hsame, sinceChange_self] at hd
      obtain ⟨d', hd', rfl⟩ := Option.map_eq_some_iff.mp hd
      rw [hsame]
      exact ih hrest hd' (by omega) (by omega)
    · rw [sinceChange_ne hsame] at hd
      cases hd
      have hstop : (before.scopeChanged && decide (before.fingerprint = record.fingerprint)) = false := by
        rw [decide_eq_false (Ne.symm hsame), Bool.and_false]
      cases n with
      | zero => rfl
      | succ n => rw [List.take_succ_cons, List.takeWhile_cons_of_neg (by rw [hstop]; exact Bool.false_ne_true),
          List.length_nil]

theorem length_takeWhile_dueRun {record rest} (h : FlaggedAsDue grace (record :: rest)) :
    (((record :: rest).take (grace + 1)).takeWhile
      (fun r => r.scopeChanged && r.fingerprint = record.fingerprint)).length =
      dueRun grace ((record :: rest).map ScopeRecord.fingerprint) := by
  have hnot : due grace ((record :: rest).map ScopeRecord.fingerprint) = false →
      (((record :: rest).take (grace + 1)).takeWhile
        (fun r => r.scopeChanged && r.fingerprint = record.fingerprint)).length = 0 := by
    intro hdue
    have hflag : record.scopeChanged = false := h.1.trans hdue
    rw [List.take_succ_cons, List.takeWhile_cons_of_neg (by simp [hflag]), List.length_nil]
  unfold dueRun
  split
  · rename_i hnone
    exact hnot (by rw [due, hnone]; rfl)
  · rename_i d hd
    split
    · rename_i hle
      exact length_takeWhile_flagged h hd hle (Nat.lt_succ_of_le hle)
    · rename_i hgt
      exact hnot (by rw [due, hd]; exact decide_eq_false hgt)

theorem flag_step {fingerprint current past} :
    (fingerprint ≠ current ∧ due grace (fingerprint :: current :: past) = true ∧
      dueRun grace (fingerprint :: current :: past) = 1) ∨
    (fingerprint = current ∧ 0 < dueRun grace (current :: past) ∧ dueRun grace (current :: past) < grace + 1 ∧
      due grace (fingerprint :: current :: past) = true ∧
      dueRun grace (fingerprint :: current :: past) = dueRun grace (current :: past) + 1) ∨
    (fingerprint = current ∧ ¬ (0 < dueRun grace (current :: past) ∧ dueRun grace (current :: past) < grace + 1) ∧
      due grace (fingerprint :: current :: past) = false ∧ dueRun grace (fingerprint :: current :: past) = 0) := by
  by_cases hsame : fingerprint = current
  · subst hsame
    right
    unfold due dueRun
    rw [sinceChange_self]
    cases sinceChange (fingerprint :: past) with
    | none => right; simp
    | some d =>
      by_cases hle : d + 1 ≤ grace
      · left
        simp only [Option.map_some, Option.any_some, decide_eq_true_eq]
        rw [if_pos (by omega : d ≤ grace), if_pos hle]
        exact ⟨trivial, by omega, by omega, hle, rfl⟩
      · right
        simp only [Option.map_some, Option.any_some, decide_eq_false_iff_not]
        rw [if_neg hle]
        refine ⟨trivial, ?_, hle, rfl⟩
        split <;> omega
  · left
    unfold due dueRun
    rw [sinceChange_ne hsame]
    exact ⟨hsame, rfl, by simp⟩

theorem flagLoop_flaggedAsDue (fingerprint : Option String) (buckets : Nat) {current stored past}
    (hpast : stored.map ScopeRecord.fingerprint = current :: past) (h : FlaggedAsDue grace stored) :
    FlaggedAsDue grace
        (((flagLoop fingerprint grace buckets current (dueRun grace (current :: past))).map
          (fun flag => (⟨fingerprint, flag⟩ : ScopeRecord))).reverse ++ stored) ∧
      (flagLoop fingerprint grace buckets current (dueRun grace (current :: past))).length = buckets := by
  induction buckets generalizing current stored past with
  | zero => exact ⟨h, rfl⟩
  | succ buckets ih =>
    have hnext : ∀ flag, due grace (fingerprint :: current :: past) = flag →
        FlaggedAsDue grace ((⟨fingerprint, flag⟩ : ScopeRecord) :: stored) := by
      intro flag hflag
      refine ⟨?_, h⟩
      rw [List.map_cons, hpast]
      exact hflag.symm
    have happend : ∀ (flag : Bool) (flags : List Bool),
        ((flag :: flags).map (fun flag => (⟨fingerprint, flag⟩ : ScopeRecord))).reverse ++ stored =
          (flags.map (fun flag => (⟨fingerprint, flag⟩ : ScopeRecord))).reverse ++
            (⟨fingerprint, flag⟩ :: stored) := by
      intro flag flags
      simp
    have hpast' : ∀ flag, (((⟨fingerprint, flag⟩ : ScopeRecord) :: stored)).map ScopeRecord.fingerprint =
        fingerprint :: current :: past := by
      intro flag
      rw [List.map_cons, hpast]
    rw [flagLoop]
    rcases @flag_step grace fingerprint current past with ⟨hne, hdue, hrun⟩ | ⟨hsame, hpos, hlt, hdue, hrun⟩ |
      ⟨hsame, hover, hdue, hrun⟩
    · have := ih (hpast' true) (hnext true hdue)
      rw [hrun] at this
      rw [if_pos hne, happend, List.length_cons, this.2]
      exact ⟨this.1, rfl⟩
    · have := ih (hpast' true) (hnext true hdue)
      rw [hrun] at this
      subst hsame
      rw [if_neg (not_not.mpr rfl), if_pos ⟨hpos, hlt⟩, happend, List.length_cons, this.2]
      exact ⟨this.1, rfl⟩
    · have := ih (hpast' false) (hnext false hdue)
      rw [hrun] at this
      subst hsame
      rw [if_neg (not_not.mpr rfl), if_neg hover, happend, List.length_cons, this.2]
      exact ⟨this.1, rfl⟩

theorem flaggedAsDue_nothing (fingerprint : Option String) (buckets : Nat) :
    FlaggedAsDue grace (List.replicate buckets ⟨fingerprint, false⟩) := by
  have hnone : ∀ n, sinceChange (List.replicate n fingerprint) = none := by
    intro n
    induction n with
    | zero => rfl
    | succ n ih =>
      cases n with
      | zero => rfl
      | succ n =>
        rw [List.replicate_succ, List.replicate_succ, sinceChange_self, ← List.replicate_succ, ih]
        rfl
  induction buckets with
  | zero => trivial
  | succ buckets ih =>
    refine ⟨?_, ih⟩
    rw [← List.replicate_succ, List.map_replicate, due, hnone]
    rfl

theorem flagTick_flaggedAsDue (tick : ScopeTick) {stored} (h : FlaggedAsDue grace stored) :
    ∃ stored', flagTick grace stored tick = .ok stored' ∧ FlaggedAsDue grace stored' ∧
      stored'.map ScopeRecord.fingerprint =
        List.replicate tick.buckets tick.fingerprint ++ stored.map ScopeRecord.fingerprint := by
  have hcounts : ¬ ((tick.buckets : Int) < 0 ∨ (grace : Int) < 0) := by omega
  cases stored with
  | nil =>
    refine ⟨List.replicate tick.buckets ⟨tick.fingerprint, false⟩, ?_, flaggedAsDue_nothing _ _, by simp⟩
    simp [flagTick, scopeChangedFlags, hcounts]
  | cons record rest =>
    obtain ⟨hflags, hlength⟩ := flagLoop_flaggedAsDue tick.fingerprint tick.buckets
      (show (record :: rest).map ScopeRecord.fingerprint = record.fingerprint :: rest.map ScopeRecord.fingerprint from rfl) h
    refine ⟨_, ?_, hflags, ?_⟩
    · have hrun := length_takeWhile_dueRun h
      rw [List.take_succ_cons] at hrun
      simp only [flagTick, scopeChangedFlags, hcounts, if_false, List.take_succ_cons, hrun, Int.toNat_natCast]
      rfl
    · rw [List.map_append, List.map_reverse, List.map_map]
      have hconst : (ScopeRecord.fingerprint ∘ fun flag => (⟨tick.fingerprint, flag⟩ : ScopeRecord)) =
          fun _ => tick.fingerprint := rfl
      rw [hconst, List.map_const', List.reverse_replicate, hlength]

theorem flagTicks_flaggedAsDue (ticks : List ScopeTick) {stored} (h : FlaggedAsDue grace stored) :
    ∃ stored', ticks.foldlM (flagTick grace) stored = .ok stored' ∧ FlaggedAsDue grace stored' ∧
      stored'.map ScopeRecord.fingerprint =
        (ticks.flatMap (fun tick => List.replicate tick.buckets tick.fingerprint)).reverse ++
          stored.map ScopeRecord.fingerprint := by
  induction ticks generalizing stored with
  | nil => exact ⟨stored, rfl, h, rfl⟩
  | cons tick rest ih =>
    obtain ⟨next, htick, hnext, hfps⟩ := flagTick_flaggedAsDue tick h
    obtain ⟨stored', hrest, hstored, hall⟩ := ih hnext
    refine ⟨stored', ?_, hstored, ?_⟩
    · rw [List.foldlM_cons, htick]
      exact hrest
    · rw [hall, hfps, List.flatMap_cons, List.reverse_append, List.reverse_replicate, List.append_assoc]

/-! ## By index -/

theorem sinceChange_le_iff {past} :
    (∃ d, sinceChange past = some d ∧ d ≤ grace) ↔
      ∃ k newest before, k ≤ grace ∧ past[k]? = some newest ∧ past[k + 1]? = some before ∧ newest ≠ before := by
  induction past generalizing grace with
  | nil => simp [sinceChange]
  | cons newest rest ih =>
    cases rest with
    | nil => simp [sinceChange]
    | cons before rest =>
      by_cases hsame : newest = before
      · subst hsame
        rw [sinceChange_self]
        constructor
        · rintro ⟨d, hd, hle⟩
          obtain ⟨d', hd', rfl⟩ := Option.map_eq_some_iff.mp hd
          obtain ⟨k, a, b, hk, ha, hb, hne⟩ := (@ih (grace - 1)).mp ⟨d', hd', by omega⟩
          exact ⟨k + 1, a, b, by omega, by simpa using ha, by simpa using hb, hne⟩
        · rintro ⟨k, a, b, hk, ha, hb, hne⟩
          cases k with
          | zero =>
            simp only [List.getElem?_cons_zero, List.getElem?_cons_succ, Option.some.injEq, zero_add] at ha hb
            exact absurd (ha.symm.trans hb) hne
          | succ k =>
            rw [List.getElem?_cons_succ] at ha hb
            obtain ⟨d, hd, hle⟩ := (@ih (grace - 1)).mpr ⟨k, a, b, by omega, ha, hb, hne⟩
            exact ⟨d + 1, by rw [hd]; rfl, by omega⟩
      · rw [sinceChange_ne hsame]
        exact iff_of_true ⟨0, rfl, Nat.zero_le _⟩ ⟨0, newest, before, Nat.zero_le _, rfl, rfl, hsame⟩

/-- The newest of the first buckets is due a flag exactly if one of them, not further back than the grace, is a change. -/
theorem due_take_iff {fingerprints i} (hi : i < fingerprints.length) :
    due grace (fingerprints.take (i + 1)).reverse = true ↔ ∃ j ≤ i, i - j ≤ grace ∧ ChangedAt fingerprints j := by
  have hlength : (fingerprints.take (i + 1)).length = i + 1 := by
    rw [List.length_take]
    omega
  have hget : ∀ k, k ≤ i → (fingerprints.take (i + 1)).reverse[k]? = fingerprints[i - k]? := by
    intro k hk
    rw [List.getElem?_reverse (by omega), hlength, List.getElem?_take_of_lt (by omega)]
    congr 1
  have hdue : due grace (fingerprints.take (i + 1)).reverse = true ↔
      ∃ d, sinceChange (fingerprints.take (i + 1)).reverse = some d ∧ d ≤ grace := by
    rw [due, Option.any_eq_true]
    simp only [decide_eq_true_eq]
  rw [hdue, sinceChange_le_iff]
  constructor
  · rintro ⟨k, newest, before, hk, hnewest, hbefore, hne⟩
    have hlt : k + 1 < i + 1 := by
      rw [← hlength, ← List.length_reverse]
      exact (List.getElem?_eq_some_iff.mp hbefore).1
    rw [hget k (by omega)] at hnewest
    rw [hget (k + 1) (by omega)] at hbefore
    exact ⟨i - k, by omega, by omega, before, newest, by omega, hbefore, hnewest, hne⟩
  · rintro ⟨j, hj, hgrace, before, newest, hpos, hbefore, hnewest, hne⟩
    refine ⟨i - j, newest, before, hgrace, ?_, ?_, hne⟩
    · rw [hget _ (by omega), show i - (i - j) = j by omega]
      exact hnewest
    · rw [hget _ (by omega), show i - (i - j + 1) = j - 1 by omega]
      exact hbefore

theorem flaggedAsDue_get {stored} (h : FlaggedAsDue grace stored) {i record}
    (hrecord : stored.reverse[i]? = some record) :
    record.scopeChanged = due grace ((stored.reverse.map ScopeRecord.fingerprint).take (i + 1)).reverse := by
  induction stored generalizing i record with
  | nil => simp at hrecord
  | cons newest rest ih =>
    rw [List.reverse_cons] at hrecord ⊢
    by_cases hi : i < rest.length
    · rw [List.getElem?_append_left (by rwa [List.length_reverse])] at hrecord
      rw [ih h.2 hrecord, List.map_append, List.take_append_of_le_length (by simpa using Nat.succ_le_of_lt hi)]
    · have hlast : i = rest.length := by
        have := (List.getElem?_eq_some_iff.mp hrecord).1
        simp only [List.length_append, List.length_reverse, List.length_singleton] at this
        omega
      subst hlast
      rw [List.getElem?_append_right (by simp), List.length_reverse, Nat.sub_self] at hrecord
      cases hrecord
      rw [h.1, List.take_of_length_le (by simp), ← List.reverse_cons, List.map_reverse, List.reverse_reverse]

end Flags

end QRadarDashboard.PropertyWatch
