import QRadarDashboard.Lib.Except
import QRadarDashboard.Services.Dashboards

/-!
# What a dashboard request commits
-/

namespace QRadarDashboard.Services
open Lib Lib.ReadCommitted

variable {β : Type} {t t' : DashboardTable β}

def DashboardTable.count (t : DashboardTable β) (subject : String) : Nat := (t.ownedNames subject).length

/-! ## The names of an owner -/

theorem ownedNames_dedup (t : DashboardTable β) (subject : String) :
    (t.ownedNames subject).dedup = t.ownedNames subject := by
  refine List.dedup_eq_self.mpr (List.Nodup.map_on ?_ (List.Nodup.filter _ (List.Nodup.of_map _ t.keys)))
  intro x hx y hy hname
  have hxo : x.2.ownerSubject = subject := by simpa using (List.mem_filter.mp hx).2
  have hyo : y.2.ownerSubject = subject := by simpa using (List.mem_filter.mp hy).2
  exact t.names x (List.mem_of_mem_filter hx) y (List.mem_of_mem_filter hy) (hxo.trans hyo.symm) hname

theorem DashboardTable.not_mem_keys_nextId : t.nextId ∉ t.rows.keys := by
  intro hmem
  obtain ⟨item, hitem, hkey⟩ := List.mem_map.mp hmem
  exact absurd (t.fresh item hitem) (by omega)

theorem insert_rows {row} (h : t.insert row = some t') :
    t'.rows = t.rows ++ [(t.nextId, row)] ∧ t'.nextId = t.nextId + 1 := by
  rw [DashboardTable.insert] at h
  split_ifs at h
  cases h
  exact ⟨Dict.set_of_not_mem DashboardTable.not_mem_keys_nextId row, rfl⟩

theorem change_rows {id row} (h : t.change id row = some t') : t'.rows = t.rows.set id row ∧ t'.nextId = t.nextId := by
  rw [DashboardTable.change] at h
  split_ifs at h
  cases h
  exact ⟨rfl, rfl⟩

theorem get?_insert {row} (h : t.insert row = some t') (id : Nat) :
    t'.get? id = if id = t.nextId then some row else t.get? id := by
  rw [DashboardTable.get?, (insert_rows h).1, ← Dict.set_of_not_mem DashboardTable.not_mem_keys_nextId row, Dict.get?_set]
  rfl

theorem get?_change {id row} (h : t.change id row = some t') (id' : Nat) :
    t'.get? id' = if id' = id then some row else t.get? id' := by
  rw [DashboardTable.get?, (change_rows h).1, Dict.get?_set]
  rfl

theorem get?_delete (t : DashboardTable β) (id id' : Nat) :
    (t.delete id).get? id' = if id' = id then none else t.get? id' := Dict.get?_pop t.rows id id'

theorem lt_nextId_of_get? {id row} (h : t.get? id = some row) : id < t.nextId :=
  t.fresh _ (Dict.mem_of_get? h)

theorem count_insert {row} (h : t.insert row = some t') (subject : String) :
    t'.count subject = t.count subject + if row.ownerSubject = subject then 1 else 0 := by
  simp only [DashboardTable.count, DashboardTable.ownedNames, (insert_rows h).1, List.filter_append, List.map_append,
    List.length_append, List.length_map]
  split_ifs with howner <;> simp [howner]

theorem count_delete (t : DashboardTable β) (id : Nat) (subject : String) :
    (t.delete id).count subject ≤ t.count subject := by
  simp only [DashboardTable.count, DashboardTable.ownedNames, List.length_map]
  exact (List.Sublist.filter _ List.filter_sublist).length_le

theorem count_change {id row old} (hold : t.get? id = some old) (howner : row.ownerSubject = old.ownerSubject)
    (h : t.change id row = some t') (subject : String) : t'.count subject = t.count subject := by
  have hmem : (id, old) ∈ t.rows := Dict.mem_of_get? hold
  have hany : t.rows.any (fun item => item.1 = id) := List.any_eq_true.mpr ⟨_, hmem, by simp⟩
  simp only [DashboardTable.count, DashboardTable.ownedNames, List.length_map, (change_rows h).1, Dict.set, if_pos hany,
    List.filter_map]
  congr 1
  refine List.filter_congr (fun item hitem => ?_)
  by_cases hid : item.1 = id
  · have hget := (Dict.get?_eq_some_iff t.keys).mpr (show (id, item.2) ∈ t.rows from hid ▸ hitem)
    obtain rfl : item.2 = old := Option.some.inj (hget.symm.trans hold)
    simp [hid, howner]
  · simp [hid]

/-! ## The name of a copy -/

theorem copyCandidate_toList (u : UnicodeTables) (sourceName : String) {n} (hn : n ≠ 1) :
    (copyCandidate u sourceName n).toList =
      u.rstrip (("Copy of " ++ sourceName).toList.take (maxNameLength - (s!" ({n})").length)) ++
        (" (".toList ++ n.repr.toList ++ [')']) := by
  simp only [copyCandidate, hn, if_false]
  simp [toString]

theorem copyCandidate_one (u : UnicodeTables) (sourceName : String) : (copyCandidate u sourceName 1).toList =
    u.rstrip (("Copy of " ++ sourceName).toList.take maxNameLength) := by
  simp [copyCandidate]

theorem copyCandidate_injective {u sourceName m n} (hm : 1 < m) (hn : 1 < n)
    (h : copyCandidate u sourceName m = copyCandidate u sourceName n) : m = n := by
  -- read from the right, the digits are what stands before the opening bracket
  have hdigits : ∀ (number : Nat) (base : List Char),
      ((base ++ (" (".toList ++ number.repr.toList ++ [')'])).reverse.drop 1).takeWhile (fun c => c ≠ '(') =
        number.repr.toList.reverse := by
    intro number base
    have hdigit : ∀ c ∈ number.repr.toList.reverse, decide (c ≠ '(') = true := by
      intro c hc
      have hisDigit : c.isDigit := by
        rw [List.mem_reverse, Nat.toList_repr] at hc
        exact Nat.isDigit_of_mem_toDigits (by decide) (by decide) hc
      refine decide_eq_true ?_
      rintro rfl
      exact absurd hisDigit (by decide)
    simp only [List.reverse_append, List.reverse_cons, List.reverse_nil, List.nil_append, List.cons_append,
      List.drop_succ_cons, List.drop_zero]
    rw [List.append_assoc, List.takeWhile_append_of_pos hdigit]
    simp
  have hsame := congrArg (fun s : String => (s.toList.reverse.drop 1).takeWhile (fun c => c ≠ '(')) h
  simp only [copyCandidate_toList u sourceName (show m ≠ 1 by omega),
    copyCandidate_toList u sourceName (show n ≠ 1 by omega)] at hsame
  rw [hdigits, hdigits] at hsame
  exact natRepr_injective (String.toList_inj.mp (List.reverse_inj.mp hsame))

section CopyName

variable {u : UnicodeTables} {sourceName : String} {taken : List String} {fuel number : Nat} {name : String}

theorem copyNameFrom_eq_find : copyNameFrom u sourceName taken fuel number =
    ((List.range' number fuel).map (copyCandidate u sourceName)).find? (fun name => name ∉ taken) := by
  induction fuel generalizing number with
  | zero => rfl
  | succ fuel ih =>
    rw [copyNameFrom, List.range'_succ, List.map_cons, List.find?_cons]
    by_cases hfree : copyCandidate u sourceName number ∉ taken
    · simp [hfree]
    · simp [hfree, ih]

theorem copyNameFrom_mono {fuel'} (hle : fuel ≤ fuel') (h : copyNameFrom u sourceName taken fuel number = some name) :
    copyNameFrom u sourceName taken fuel' number = some name := by
  obtain ⟨more, rfl⟩ := Nat.exists_eq_add_of_le hle
  rw [copyNameFrom_eq_find] at h ⊢
  rw [← List.range'_append_1, List.map_append, List.find?_append, h]
  rfl

theorem copyNameFrom_some (h : copyNameFrom u sourceName taken fuel 1 = some name) :
    name ∉ taken ∧ ∃ n, 1 ≤ n ∧ n ≤ fuel ∧ name = copyCandidate u sourceName n := by
  rw [copyNameFrom_eq_find] at h
  obtain ⟨n, hn, hname⟩ := List.mem_map.mp (List.mem_of_find?_eq_some h)
  obtain ⟨hlow, hhigh⟩ := List.mem_range'_1.mp hn
  exact ⟨by simpa using List.find?_some h, n, hlow, by omega, hname.symm⟩

theorem copyNameFrom_isSome (u : UnicodeTables) (sourceName : String) (taken : List String) :
    ∃ name, copyNameFrom u sourceName taken (taken.dedup.length + 2) 1 = some name := by
  cases hloop : copyNameFrom u sourceName taken (taken.dedup.length + 2) 1 with
  | some name => exact ⟨name, rfl⟩
  | none =>
    rw [copyNameFrom_eq_find, List.find?_eq_none] at hloop
    have hnumbered : ((List.range' 2 (taken.dedup.length + 1)).map (copyCandidate u sourceName)).Nodup := by
      refine List.Nodup.map_on (fun m hm n hn heq => ?_) List.nodup_range'
      have hlow := (List.mem_range'_1.mp hm).1
      have hlow' := (List.mem_range'_1.mp hn).1
      exact copyCandidate_injective (by omega) (by omega) heq
    have hsubset : (List.range' 2 (taken.dedup.length + 1)).map (copyCandidate u sourceName) ⊆ taken.dedup := by
      intro name hname
      obtain ⟨n, hn, rfl⟩ := List.mem_map.mp hname
      have hmem : n ∈ List.range' 1 (taken.dedup.length + 2) := by
        rw [List.mem_range'_1] at hn ⊢
        omega
      simpa using hloop _ (List.mem_map_of_mem hmem)
    have hlength := (List.subperm_of_subset hnumbered hsubset).length_le
    simp at hlength

theorem length_copyCandidate (u : UnicodeTables) (sourceName : String) {n} (hn : n ≤ maxDashboardsPerOwner + 2) :
    (copyCandidate u sourceName n).length ≤ maxNameLength := by
  have hstrip (k : Nat) : (u.rstrip (("Copy of " ++ sourceName).toList.take k)).length ≤ k :=
    (UnicodeTables.rstrip_prefix _).length_le.trans (List.length_take_le _ _)
  by_cases hone : n = 1
  · rw [hone, ← String.length_toList, copyCandidate_one]
    exact hstrip _
  · have htail : ∀ n ≤ maxDashboardsPerOwner + 2, (s!" ({n})").length ≤ maxNameLength := by decide
    have hle := hstrip (maxNameLength - (s!" ({n})").length)
    have hfits := htail n hn
    have hlength : (" (".toList ++ n.repr.toList ++ [')']).length = (s!" ({n})").length := by
      simp [toString, ← String.length_toList]
    rw [← String.length_toList, copyCandidate_toList u sourceName hone, List.length_append, hlength]
    omega

theorem last_copyCandidate (hbracket : u.isspace ')' = false) (n : Nat) {c : Char}
    (h : (copyCandidate u sourceName n).toList.getLast? = some c) : u.isspace c = false := by
  by_cases hone : n = 1
  · rw [hone, copyCandidate_one] at h
    exact UnicodeTables.last_rstrip h
  · rw [copyCandidate_toList u sourceName hone, ← List.append_assoc, List.getLast?_concat] at h
    cases h
    exact hbracket

theorem copyNameFrom_copyName (u : UnicodeTables) (sourceName : String) (taken : List String) :
    copyNameFrom u sourceName taken (taken.length + 2) 1 = some (copyName u sourceName taken) := by
  obtain ⟨name, hname⟩ := copyNameFrom_isSome u sourceName taken
  have hloop := copyNameFrom_mono (Nat.add_le_add_right (List.dedup_sublist taken).length_le 2) hname
  have hcandidates : (List.range (taken.length + 2)).map (fun n => copyCandidate u sourceName (n + 1)) =
      (List.range' 1 (taken.length + 2)).map (copyCandidate u sourceName) := by
    rw [List.range'_eq_map_range, List.map_map]
    exact List.map_congr_left (fun n _ => congrArg _ (Nat.add_comm n 1))
  rw [hloop, copyName, hcandidates, ← copyNameFrom_eq_find, hloop]

end CopyName

/-! ## Rows over time -/

/-- The rows that are still there have kept their owner, and no revision has become smaller. A key is used once. -/
structure Grows (t t' : DashboardTable β) : Prop where
  nextId : t.nextId ≤ t'.nextId
  row : ∀ {id row'}, id < t.nextId → t'.get? id = some row' →
    ∃ row, t.get? id = some row ∧ row'.ownerSubject = row.ownerSubject ∧ row.revision ≤ row'.revision

theorem Grows.refl (t : DashboardTable β) : Grows t t := ⟨le_rfl, fun _ h => ⟨_, h, rfl, le_rfl⟩⟩

theorem Grows.trans {t''} (h : Grows t t') (h' : Grows t' t'') : Grows t t'' := by
  refine ⟨h.nextId.trans h'.nextId, fun hid hrow => ?_⟩
  obtain ⟨row', hrow', howner', hle'⟩ := h'.row (lt_of_lt_of_le hid h.nextId) hrow
  obtain ⟨row, hrow, howner, hle⟩ := h.row hid hrow'
  exact ⟨row, hrow, howner'.trans howner, hle.trans hle'⟩

@[simp] theorem apply_ownerSubject (principal : Principal) (row : Dashboard β) (change : Change β) :
    (change.apply principal row).ownerSubject = row.ownerSubject := by
  cases change <;> rfl

@[simp] theorem apply_revision (principal : Principal) (row : Dashboard β) (change : Change β) :
    (change.apply principal row).revision = row.revision + 1 := by
  cases change <;> rfl

def DashboardTx.Found (t : DashboardTable β) : DashboardTx β → Prop
  | .updated _ id change row => t.get? id = some row ∧ change.selects row = true
  | _ => True

theorem settle_grows {tx : DashboardTx β} (hfound : tx.Found t) (h : tx.settle t = some t') : Grows t t' := by
  cases tx with
  | inserted row =>
    refine ⟨by rw [(insert_rows h).2]; omega, fun hid hrow => ⟨_, ?_, rfl, le_rfl⟩⟩
    rwa [get?_insert h, if_neg (by omega)] at hrow
  | updated principal id change row =>
    refine ⟨by rw [(change_rows h).2], fun {id' row'} _ hrow => ?_⟩
    rw [get?_change h] at hrow
    split_ifs at hrow with hid
    · cases hrow
      exact ⟨row, hid ▸ hfound.1, by simp, by simp⟩
    · exact ⟨row', hrow, rfl, le_rfl⟩
  | deleted principal id =>
    cases h
    refine ⟨le_rfl, fun {id' row'} _ hrow => ?_⟩
    rw [get?_delete] at hrow
    split_ifs at hrow
    exact ⟨row', hrow, rfl, le_rfl⟩
  | gone =>
    cases h
    exact Grows.refl _
  | _ => cases h

/-! ## Locked rows -/

variable {env : DashboardEnv}

def enterDashboard (request : Principal × DashboardOp β) : DashboardTx β := .requested request.1 request.2

def DashboardTx.owned (env : DashboardEnv) : DashboardTx β → Set DashboardKey
  | .limited principal _ => {.owner (env.hashtext principal.subject)}
  | .inserting row | .inserted row => {.owner (env.hashtext row.ownerSubject)}
  | .updated _ id _ _ | .deleted _ id => {.row id}
  | _ => ∅

def DashboardTx.Knows (tx : DashboardTx β) (key : DashboardKey) (row : Option (Option (Dashboard β))) : Prop :=
  match tx with
  | .updated _ id change found => key = .row id → row = some (some found) ∧ change.selects found = true
  | _ => True

theorem orRefused_of {α : Type} {P : DashboardTx β → Prop} {next : α → DashboardTx β} {x}
    (hrefused : ∀ e, P (.refused e)) (hnext : ∀ a, x = .ok a → P (next a)) : P (orRefused next x) := by
  cases x with
  | error e => exact hrefused e
  | ok a => exact hnext a rfl

theorem guardOwnerLimit_ok {principal seed names} {row : Dashboard β}
    (h : guardOwnerLimit env principal seed names = .ok row) :
    names.dedup.length < maxDashboardsPerOwner ∧ row.ownerSubject = principal.subject ∧ row.revision = 1 := by
  rw [guardOwnerLimit] at h
  split_ifs at h with hlimit
  refine ⟨by omega, ?_⟩
  cases seed with
  | create body =>
    rw [Seed.row] at h
    split_ifs at h
    cases h
    exact ⟨rfl, rfl⟩
  | duplicate source =>
    rw [Seed.row] at h
    split at h <;> cases h
    exact ⟨rfl, rfl⟩

theorem owned_read {tx} {f : DashboardTable β → DashboardTx β} (h : dashboardNext env tx = .read f)
    (t : DashboardTable β) {key} (hkey : key ∈ (f t).owned env) : key ∈ tx.owned env ∧ ∀ row, (f t).Knows key row := by
  cases tx with
  | requested principal op =>
    cases op with
    | create body => cases h
    | _ =>
      cases h
      refine orRefused_of (P := fun tx => key ∈ tx.owned env → _) nofun ?_ hkey
      exact fun _ _ hkey => absurd hkey (Set.notMem_empty key)
  | limited principal seed =>
    cases h
    refine orRefused_of (P := fun tx => key ∈ tx.owned env → _ ∧ ∀ row, tx.Knows key row) nofun (fun row hrow hkey => ?_) hkey
    rw [DashboardTx.owned, (guardOwnerLimit_ok hrow).2.1] at hkey
    exact ⟨hkey, fun _ => trivial⟩
  | inserting row =>
    cases h
    dsimp only at hkey ⊢
    split_ifs at hkey ⊢
    · cases hkey
    · exact ⟨hkey, fun _ => trivial⟩
  | updating principal id change =>
    cases h
    dsimp only at hkey
    split at hkey <;> cases hkey
  | missed id change =>
    cases h
    dsimp only at hkey
    split at hkey <;> cases hkey
  | deleting principal id =>
    cases h
    dsimp only at hkey
    split at hkey <;> cases hkey
  | _ => cases h

theorem owned_lock {tx key'} {f : DashboardTable β → DashboardTx β}
    (h : dashboardNext env tx = .lock key' f) (t : DashboardTable β) {key}
    (hkey : key ∈ (f t).owned env) : key = key' ∧ (t.row key').isSome ∧ (f t).Knows key' (t.row key') := by
  cases tx with
  | requested principal op =>
    cases op with
    | create body =>
      cases h
      exact ⟨hkey, rfl, trivial⟩
    | _ => cases h
  | limiting principal seed =>
    cases h
    exact ⟨hkey, rfl, trivial⟩
  | waiting principal id change =>
    cases h
    dsimp only at hkey ⊢
    split at hkey
    · cases hkey
    · next row hfound =>
      obtain ⟨hrow, hselects⟩ := Option.filter_eq_some_iff.mp hfound
      have hget : t.row (.row id) = some (some row) := by rw [DashboardTable.row, hrow]; rfl
      split_ifs at hkey with hconflict
      · cases hkey
      · rw [if_neg hconflict]
        refine orRefused_of (P := fun tx => key ∈ tx.owned env → _ ∧ _ ∧ tx.Knows _ _) nofun
          (fun layout _ hkey => ?_) hkey
        exact ⟨hkey, by rw [hget]; rfl, fun _ => ⟨hget, hselects⟩⟩
  | deletingRow principal id =>
    cases h
    dsimp only at hkey ⊢
    split at hkey
    · cases hkey
    · next row hrow => exact ⟨hkey, by rw [DashboardTable.row, hrow]; rfl, trivial⟩
  | _ => cases h

theorem row_commit {tx} {f : DashboardTable β → DashboardTable β}
    (h : dashboardNext env tx = .commit f) (t : DashboardTable β) {key} (hkey : key ∉ tx.owned env)
    (hrow : (t.row key).isSome) : (f t).row key = t.row key := by
  cases key with
  | owner hash => rfl
  | row id =>
    have hget : (f t).get? id = t.get? id := by
      cases tx with
      | inserted row =>
        cases h
        dsimp only [DashboardTx.settle]
        cases hinsert : t.insert row with
        | none => rfl
        | some t' =>
          have hold : id ≠ t.nextId := by
            rintro rfl
            obtain ⟨old, hold⟩ := Option.isSome_iff_exists.mp hrow
            obtain ⟨old', hold', _⟩ := Option.map_eq_some_iff.mp hold
            exact absurd (lt_nextId_of_get? hold') (lt_irrefl _)
          exact (get?_insert hinsert id).trans (if_neg hold)
      | updated principal id' change row =>
        cases h
        dsimp only [DashboardTx.settle]
        cases hchange : t.change id' (change.apply principal row) with
        | none => rfl
        | some t' =>
          refine (get?_change hchange id).trans (if_neg ?_)
          rintro rfl
          exact hkey rfl
      | deleted principal id' =>
        cases h
        refine (get?_delete t id' id).trans (if_neg ?_)
        rintro rfl
        exact hkey rfl
      | gone =>
        cases h
        rfl
      | requested principal op => cases op <;> cases h
      | _ => cases h
    rw [DashboardTable.row, DashboardTable.row, hget]

def dashboardDiscipline (env : DashboardEnv) :
    Discipline DashboardTable.row (enterDashboard (β := β)) (dashboardNext env) where
  owned := DashboardTx.owned env
  Knows := DashboardTx.Knows
  enter := fun _ => rfl
  read := fun h t key hkey => ⟨(owned_read h t hkey).1, fun _ => (owned_read h t hkey).2 _⟩
  lock := fun h t key hkey => by
    obtain ⟨rfl, hsome, hknows⟩ := owned_lock h t hkey
    exact Or.inr ⟨rfl, hsome, hknows⟩
  commit := fun h t key hkey hrow => row_commit h t hkey hrow

/-! ## What an open request knows -/

def DashboardTx.Known (tx : DashboardTx β) (t : DashboardTable β) : Prop :=
  match tx with
  | .inserting row | .inserted row => t.count row.ownerSubject < maxDashboardsPerOwner
  | .updating principal id _ | .waiting principal id _ | .updated principal id _ _ | .deleting principal id
  | .deletingRow principal id | .deleted principal id =>
    id < t.nextId ∧ ∀ row, t.get? id = some row →
      row.ownerSubject = principal.subject ∨ principal.has permAdmin = true
  | _ => True

theorem changeableRow_ok {id principal row} (h : changeableRow t id principal = .ok row) :
    t.get? id = some row ∧ (row.ownerSubject = principal.subject ∨ principal.has permAdmin = true) := by
  obtain ⟨found, hvisible, h⟩ := bind_ok h
  obtain ⟨_, howner, h⟩ := bind_ok h
  cases h
  rw [visibleRow] at hvisible
  rw [requireOwnerOrAdmin] at howner
  split_ifs at howner with hforeign
  split at hvisible
  · cases hvisible
  · next found hget =>
    split_ifs at hvisible
    cases hvisible
    refine ⟨hget, ?_⟩
    by_cases hmine : row.ownerSubject = principal.subject
    · exact Or.inl hmine
    · exact Or.inr (by simpa [hmine] using hforeign)

theorem mayWrite_of_changeable {id principal row} (h : changeableRow t id principal = .ok row) :
    id < t.nextId ∧ ∀ row, t.get? id = some row →
      row.ownerSubject = principal.subject ∨ principal.has permAdmin = true := by
  obtain ⟨hget, hmay⟩ := changeableRow_ok h
  refine ⟨lt_nextId_of_get? hget, fun row' hrow' => ?_⟩
  cases Option.some.inj (hget.symm.trans hrow')
  exact hmay

theorem known_answers {tx tx'} (h : (dashboardNext env tx).Answers t tx') (hknown : tx.Known t) :
    tx'.Known t := by
  cases tx with
  | requested principal op =>
    cases op with
    | create body =>
      rcases h with ⟨f, hf, rfl⟩ | ⟨key, f, hf, rfl⟩ <;> cases hf
      trivial
    | duplicate id =>
      rcases h with ⟨f, hf, rfl⟩ | ⟨key, f, hf, rfl⟩ <;> cases hf
      exact orRefused_of (P := fun tx => tx.Known t) (fun _ => trivial) (fun _ _ => trivial)
    | patch id body =>
      rcases h with ⟨f, hf, rfl⟩ | ⟨key, f, hf, rfl⟩ <;> cases hf
      refine orRefused_of (P := fun tx => tx.Known t) (fun _ => trivial) (fun values hvalues => ?_)
      obtain ⟨row, hrow, _⟩ := bind_ok (mapError_eq_ok.mp hvalues)
      exact mayWrite_of_changeable hrow
    | _ =>
      rcases h with ⟨f, hf, rfl⟩ | ⟨key, f, hf, rfl⟩ <;> cases hf
      refine orRefused_of (P := fun tx => tx.Known t) (fun _ => trivial) (fun row hrow => ?_)
      exact mayWrite_of_changeable (mapError_eq_ok.mp hrow)
  | limiting principal seed =>
    rcases h with ⟨f, hf, rfl⟩ | ⟨key, f, hf, rfl⟩ <;> cases hf
    trivial
  | limited principal seed =>
    rcases h with ⟨f, hf, rfl⟩ | ⟨key, f, hf, rfl⟩ <;> cases hf
    refine orRefused_of (P := fun tx => tx.Known t) (fun _ => trivial) (fun row hrow => ?_)
    obtain ⟨hlimit, howner, _⟩ := guardOwnerLimit_ok hrow
    rw [ownedNames_dedup] at hlimit
    rw [← howner] at hlimit
    exact hlimit
  | inserting row =>
    rcases h with ⟨f, hf, rfl⟩ | ⟨key, f, hf, rfl⟩ <;> cases hf
    dsimp only
    split_ifs
    · trivial
    · exact hknown
  | updating principal id change =>
    rcases h with ⟨f, hf, rfl⟩ | ⟨key, f, hf, rfl⟩ <;> cases hf
    dsimp only
    split
    · trivial
    · exact hknown
  | waiting principal id change =>
    rcases h with ⟨f, hf, rfl⟩ | ⟨key, f, hf, rfl⟩ <;> cases hf
    dsimp only
    split
    · trivial
    · split_ifs
      · trivial
      · exact orRefused_of (P := fun tx => tx.Known t) (fun _ => trivial) (fun _ _ => hknown)
  | missed id change =>
    rcases h with ⟨f, hf, rfl⟩ | ⟨key, f, hf, rfl⟩ <;> cases hf
    dsimp only
    split <;> trivial
  | deleting principal id | deletingRow principal id =>
    rcases h with ⟨f, hf, rfl⟩ | ⟨key, f, hf, rfl⟩ <;> cases hf
    dsimp only
    split
    · trivial
    · exact hknown
  | _ => rcases h with ⟨f, hf, rfl⟩ | ⟨key, f, hf, rfl⟩ <;> cases hf

/-! ## Commits -/

theorem commit_settle {tx} {f : DashboardTable β → DashboardTable β}
    (h : dashboardNext env tx = .commit f) : f t = (tx.settle t).getD t := by
  cases tx with
  | requested principal op => cases op <;> cases h
  | inserted _ | updated _ _ _ _ | deleted _ _ | gone => cases h; rfl
  | _ => cases h

theorem settle_eq_none {tx} (h : ∀ f, dashboardNext env tx ≠ .commit f) : tx.settle t = none := by
  cases tx with
  | inserted _ | updated _ _ _ _ | deleted _ _ | gone => exact absurd rfl (h _)
  | _ => rfl

variable {τ : Type}

abbrev DashboardDb (β τ : Type) := Db (DashboardTable β) DashboardKey τ (DashboardTx β)

variable {db db' : DashboardDb β τ} {u v : τ}

/-- What holds of the open requests: their locks, and what they know. -/
structure DashboardsOk (env : DashboardEnv) (db : DashboardDb β τ) : Prop where
  locked : (dashboardDiscipline env).Inv db
  known : ∀ u tx, db.session u = some tx → tx.Known db.committed

theorem dashboardsOk_quiet (t : DashboardTable β) : DashboardsOk env (Db.quiet t : DashboardDb β τ) :=
  ⟨fun _ _ hopen => by simp [Db.quiet] at hopen, fun _ _ hopen => by simp [Db.quiet] at hopen⟩

theorem DashboardsOk.found (h : DashboardsOk env db) {tx} (hopen : db.session u = some tx) : tx.Found db.committed := by
  cases tx with
  | updated principal id change row =>
    obtain ⟨_, _, hknows⟩ := h.locked u _ hopen (.row id) rfl
    obtain ⟨hrow, hselects⟩ := hknows rfl
    obtain ⟨row', hrow', heq⟩ := Option.map_eq_some_iff.mp hrow
    exact ⟨heq ▸ hrow', hselects⟩
  | _ => trivial

theorem DashboardsOk.other_owner (h : DashboardsOk env db) {row row' tx} (huv : v ≠ u)
    (hopen : db.session u = some (.inserted row)) (hother : db.session v = some tx)
    (htx : tx = .inserting row' ∨ tx = .inserted row') : row.ownerSubject ≠ row'.ownerSubject := by
  intro howner
  have hmine := (h.locked u _ hopen (.owner (env.hashtext row.ownerSubject)) rfl).1
  have hits : db.locks (.owner (env.hashtext row'.ownerSubject)) = some v := by
    rcases htx with rfl | rfl <;> exact (h.locked v _ hother _ rfl).1
  rw [← howner] at hits
  exact huv (Option.some.inj (hits.symm.trans hmine))

theorem DashboardsOk.known_settle (h : DashboardsOk env db) {tx tx' : DashboardTx β} (hopen : db.session u = some tx)
    (hsettle : tx.settle db.committed = some t') (huv : v ≠ u) (hother : db.session v = some tx')
    (hknown : tx'.Known db.committed) : tx'.Known t' := by
  have hgrows : Grows db.committed t' := settle_grows (h.found hopen) hsettle
  have hcount : ∀ row, tx' = .inserting row ∨ tx' = .inserted row →
      t'.count row.ownerSubject ≤ db.committed.count row.ownerSubject := by
    intro row hrow
    cases tx with
    | inserted row' =>
      rw [count_insert hsettle, if_neg (h.other_owner huv hopen hother hrow)]
      omega
    | updated principal id change row' =>
      rw [count_change (h.found hopen).1 (apply_ownerSubject principal row' change) hsettle]
    | deleted principal id =>
      cases hsettle
      exact count_delete _ _ _
    | gone => cases hsettle; exact le_rfl
    | _ => cases hsettle
  have hmay : ∀ (principal : Principal) id, (id < db.committed.nextId ∧ ∀ row, db.committed.get? id = some row →
        row.ownerSubject = principal.subject ∨ principal.has permAdmin = true) →
      id < t'.nextId ∧ ∀ row, t'.get? id = some row →
        row.ownerSubject = principal.subject ∨ principal.has permAdmin = true := by
    rintro principal id ⟨hid, hrows⟩
    refine ⟨lt_of_lt_of_le hid hgrows.nextId, fun row' hrow' => ?_⟩
    obtain ⟨row, hrow, howner, _⟩ := hgrows.row hid hrow'
    rw [howner]
    exact hrows row hrow
  cases tx' with
  | inserting row => exact lt_of_le_of_lt (hcount row (Or.inl rfl)) hknown
  | inserted row => exact lt_of_le_of_lt (hcount row (Or.inr rfl)) hknown
  | updating principal id _ | waiting principal id _ | updated principal id _ _ | deleting principal id
  | deletingRow principal id | deleted principal id => exact hmay principal id hknown
  | _ => trivial

/-! ## What a step accepts -/

abbrev DashboardTaken (β τ : Type) := Taken (DashboardDb β τ) (Move τ (Principal × DashboardOp β)) (DashboardDb β τ)

def DashboardTaken.accepted (e : DashboardTaken β τ) : Option (DashboardTx β) :=
  match e.input with
  | .start _ _ => none
  | .advance u => (e.before.session u).filter (fun tx => (tx.settle e.before.committed).isSome)

def DashboardTaken.Updates (e : DashboardTaken β τ) (id : Nat) : Prop :=
  ∃ principal change row, e.accepted = some (.updated principal id change row)

def DashboardTaken.Replaces (e : DashboardTaken β τ) (id revision : Nat) : Prop :=
  ∃ principal body row, e.accepted = some (.updated principal id (.replace body) row) ∧ body.expectedRevision = revision

def DashboardTaken.caller (e : DashboardTaken β τ) : Option Principal :=
  match e.accepted with
  | some (.updated principal _ _ _) | some (.deleted principal _) => some principal
  | _ => none

variable [DecidableEq τ]

theorem DashboardsOk.step (h : DashboardsOk env db) {move}
    (hstep : db.step DashboardTable.row enterDashboard (dashboardNext env) move = .ok db') : DashboardsOk env db' := by
  refine ⟨(dashboardDiscipline env).inv_step h.locked hstep, ?_⟩
  refine known_step h.known (fun request t => ?_) known_answers ?_ hstep
  · exact (trivial : (enterDashboard request).Known t)
  intro u tx f _ hopen hnext v tx' huv hother hknown
  rw [commit_settle hnext]
  cases hsettle : tx.settle db.committed with
  | none => exact hknown
  | some t' => exact h.known_settle hopen hsettle huv hother hknown

theorem DashboardsOk.accepts (h : DashboardsOk env db) {move}
    (hstep : db.step DashboardTable.row enterDashboard (dashboardNext env) move = .ok db') :
    (DashboardTaken.accepted ⟨db, move, db'⟩ = none ∧ db'.committed = db.committed) ∨
      ∃ tx, DashboardTaken.accepted ⟨db, move, db'⟩ = some tx ∧ tx.settle db.committed = some db'.committed ∧
        tx.Found db.committed ∧ tx.Known db.committed := by
  cases move with
  | start u request => exact Or.inl ⟨rfl, by rw [step_start hstep]⟩
  | advance u =>
    obtain ⟨tx, hopen, hperform⟩ := step_advance hstep
    have haccepted : DashboardTaken.accepted ⟨db, .advance u, db'⟩ =
        if (tx.settle db.committed).isSome then some tx else none := by
      simp only [DashboardTaken.accepted, hopen, Option.filter]
    rw [haccepted]
    by_cases hcommit : ∃ f, dashboardNext env tx = .commit f
    · obtain ⟨f, hnext⟩ := hcommit
      rw [hnext] at hperform
      cases hperform
      rw [commit_settle hnext]
      cases hsettle : tx.settle db.committed with
      | none => exact Or.inl ⟨rfl, rfl⟩
      | some t' => exact Or.inr ⟨tx, rfl, by simp [hsettle], h.found hopen, h.known u tx hopen⟩
    · have hnone : tx.settle db.committed = none := settle_eq_none (fun f hf => hcommit ⟨f, hf⟩)
      rw [hnone]
      rcases perform_committed hperform with hsame | ⟨f, hnext, _⟩
      · exact Or.inl ⟨rfl, hsame⟩
      · exact absurd ⟨f, hnext⟩ hcommit

theorem DashboardsOk.updates (h : DashboardsOk env db) {move}
    (hstep : db.step DashboardTable.row enterDashboard (dashboardNext env) move = .ok db') {id principal change row}
    (haccepted : DashboardTaken.accepted ⟨db, move, db'⟩ = some (.updated principal id change row)) :
    db.committed.get? id = some row ∧ change.selects row = true ∧
      db'.committed.get? id = some (change.apply principal row) := by
  rcases h.accepts hstep with ⟨hnone, _⟩ | ⟨tx, hsome, hsettle, hfound, _⟩
  · rw [hnone] at haccepted
    cases haccepted
  · cases hsome.symm.trans haccepted
    exact ⟨hfound.1, hfound.2, (get?_change hsettle id).trans (if_pos rfl)⟩

/-- A row that the step changes or removes is that of its caller, or the caller is an administrator. -/
theorem DashboardsOk.authorized (h : DashboardsOk env db) {move}
    (hstep : db.step DashboardTable.row enterDashboard (dashboardNext env) move = .ok db') {id row}
    (hrow : db.committed.get? id = some row) (hchanged : db'.committed.get? id ≠ some row) :
    ∃ principal, DashboardTaken.caller ⟨db, move, db'⟩ = some principal ∧
      (row.ownerSubject = principal.subject ∨ principal.has permAdmin = true) := by
  rcases h.accepts hstep with ⟨_, hsame⟩ | ⟨tx, hsome, hsettle, hfound, hknown⟩
  · rw [hsame] at hchanged
    exact absurd hrow hchanged
  · cases tx with
    | inserted row' =>
      rw [get?_insert hsettle, if_neg (Nat.ne_of_lt (lt_nextId_of_get? hrow))] at hchanged
      exact absurd hrow hchanged
    | updated principal id' change row' =>
      rw [get?_change hsettle] at hchanged
      split_ifs at hchanged with hid
      · exact ⟨principal, by simp [DashboardTaken.caller, hsome], hknown.2 row (hid ▸ hrow)⟩
      · exact absurd hrow hchanged
    | deleted principal id' =>
      have hdelete : db'.committed = db.committed.delete id' := (Option.some.inj hsettle).symm
      rw [hdelete, get?_delete] at hchanged
      split_ifs at hchanged with hid
      · exact ⟨principal, by simp [DashboardTaken.caller, hsome], hknown.2 row (hid ▸ hrow)⟩
      · exact absurd hrow hchanged
    | gone =>
      rw [← Option.some.inj hsettle] at hchanged
      exact absurd hrow hchanged
    | _ => cases hsettle

theorem DashboardsOk.unchanged (h : DashboardsOk env db) {move}
    (hstep : db.step DashboardTable.row enterDashboard (dashboardNext env) move = .ok db') {id}
    (hnot : ¬ DashboardTaken.Updates ⟨db, move, db'⟩ id) {row row'}
    (hrow : db.committed.get? id = some row) (hrow' : db'.committed.get? id = some row') : row' = row := by
  rcases h.accepts hstep with ⟨_, hsame⟩ | ⟨tx, hsome, hsettle, hfound, _⟩
  · rw [hsame, hrow] at hrow'
    exact (Option.some.inj hrow').symm
  · cases tx with
    | inserted new =>
      rw [get?_insert hsettle, if_neg (Nat.ne_of_lt (lt_nextId_of_get? hrow)), hrow] at hrow'
      exact (Option.some.inj hrow').symm
    | updated principal id' change found =>
      rw [get?_change hsettle] at hrow'
      split_ifs at hrow' with hid
      · exact absurd ⟨principal, change, found, hid ▸ hsome⟩ hnot
      · exact (Option.some.inj (hrow.symm.trans hrow')).symm
    | deleted principal id' =>
      have hdelete : db'.committed = db.committed.delete id' := (Option.some.inj hsettle).symm
      rw [hdelete, get?_delete] at hrow'
      split_ifs at hrow'
      exact (Option.some.inj (hrow.symm.trans hrow')).symm
    | gone =>
      rw [← Option.some.inj hsettle, hrow] at hrow'
      exact (Option.some.inj hrow').symm
    | _ => cases hsettle

theorem DashboardsOk.grows (h : DashboardsOk env db) {move}
    (hstep : db.step DashboardTable.row enterDashboard (dashboardNext env) move = .ok db') :
    Grows db.committed db'.committed := by
  rcases h.accepts hstep with ⟨_, hsame⟩ | ⟨tx, _, hsettle, hfound, _⟩
  · rw [hsame]
    exact Grows.refl _
  · exact settle_grows hfound hsettle

def DashboardTable.Limited (t : DashboardTable β) : Prop := ∀ subject, t.count subject ≤ maxDashboardsPerOwner

theorem DashboardsOk.limited (h : DashboardsOk env db) {move}
    (hstep : db.step DashboardTable.row enterDashboard (dashboardNext env) move = .ok db')
    (hlimited : db.committed.Limited) : db'.committed.Limited := by
  intro subject
  have hbefore := hlimited subject
  rcases h.accepts hstep with ⟨_, hsame⟩ | ⟨tx, _, hsettle, hfound, hknown⟩
  · rw [hsame]
    exact hbefore
  · cases tx with
    | inserted row =>
      rw [count_insert hsettle]
      split_ifs with howner
      · exact howner ▸ hknown
      · exact hbefore
    | updated principal id change row =>
      rw [count_change hfound.1 (apply_ownerSubject principal row change) hsettle]
      exact hbefore
    | deleted principal id =>
      rw [← Option.some.inj hsettle]
      exact (count_delete _ _ _).trans hbefore
    | gone =>
      rw [← Option.some.inj hsettle]
      exact hbefore
    | _ => cases hsettle

end QRadarDashboard.Services
