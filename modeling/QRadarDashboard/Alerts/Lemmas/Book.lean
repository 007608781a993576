import QRadarDashboard.Alerts.Book
import QRadarDashboard.Alerts.Lemmas.Bulk

/-!
# Both paths keep the book

On the book a refresh commutes with any work on another fingerprint, so the two passes of a bulk call do what the
inputs do in order.
-/

namespace QRadarDashboard.Alerts
open Lib

variable {φ : Type} {svc : Service} {s : Session φ} {fp fp' : String}

/-! ## The service writes the book -/

theorem activeId_book : s.book.activeId fp = (s.findActive fp).map (fun a => a.id) := by
  simp only [Book.activeId, Session.book, Session.findActive, List.find?_map, Option.map_map]
  rfl

theorem book_update {a} (h : WellFormed svc s) (ha : a ∈ s.alerts) (hact : a.active) {f g : Alert φ → Alert φ}
    (hfg : ∀ b, (f b).timeless = (g b.timeless).timeless) : (s.update a.id f).book = s.book.write a.dedupKey g := by
  simp only [Session.book, Session.update, Book.write, List.map_map, Book.mk.injEq, and_true]
  refine List.map_congr_left (fun b hb => ?_)
  have hiff : b.id = a.id ↔ b.dedupKey = a.dedupKey ∧ b.active := by
    constructor
    · intro hid
      obtain rfl : b = a := List.inj_on_of_nodup_map h.ids_nodup hb ha hid
      exact ⟨rfl, hact⟩
    · rintro ⟨hkey, hb'⟩
      rw [h.one_active b hb a ha hb' hact hkey]
  by_cases hid : b.id = a.id
  · obtain ⟨hkey, hb'⟩ := hiff.mp hid
    have hrow : (b.timeless.dedupKey = a.dedupKey && b.timeless.active) = true := by
      simp [hkey, hb']
    simp only [Function.comp_apply, hid, if_true, hrow]
    exact hfg b
  · have hrow : (b.timeless.dedupKey = a.dedupKey && b.timeless.active) = false := by
      rw [Bool.eq_false_iff]
      intro htrue
      simp only [Bool.and_eq_true, decide_eq_true_eq] at htrue
      exact hid (hiff.mpr htrue)
    simp only [Function.comp_apply, hid, if_false, hrow, Bool.false_eq_true]

theorem refresh_timeless (data : AlertInput φ) (now : Int) (a : Alert φ) :
    (refresh data now a).timeless = (refresh data 0 a.timeless).timeless := rfl

theorem resolved_timeless (now : Int) (actor : String) (reason : Option String) (a : Alert φ) :
    (resolved now actor reason a).timeless = (resolved 0 actor reason a.timeless).timeless := rfl

theorem book_insert (data : AlertInput φ) (now : Int) :
    (s.insert svc data now).2.book =
      ⟨s.book.alerts ++ [(newAlert data 0 (svc.uuid4 s.issued)).timeless], s.book.issued + 1⟩ := by
  simp only [Session.insert, Session.book, List.map_append, List.map_cons, List.map_nil]
  rfl

theorem openOrUpdate_book (h : WellFormed svc s) (data : AlertInput φ) :
    ((openOrUpdate svc s data).1, (openOrUpdate svc s data).2.book) = s.book.work svc.uuid4 data := by
  cases hfind : s.findActive data.fingerprint with
  | some a =>
    obtain ⟨ha, hkey, hact⟩ := findActive_eq_some hfind
    have hupdate := book_update h.tick ha hact (refresh_timeless data (svc.clock s.reads))
    simp only [openOrUpdate, findActive_tick, hfind, Book.work, activeId_book, Option.map_some, hupdate, hkey]
    rfl
  | none =>
    have hinsert := @book_insert φ svc s.tick data (svc.clock s.reads)
    simp only [openOrUpdate, findActive_tick, hfind, Book.work, activeId_book, Option.map_none, hinsert]
    rfl

theorem resolveByFingerprint_book (h : WellFormed svc s) (item : AlertResolution) :
    ∃ r s', resolveByFingerprint svc s item = .ok (r, s') ∧ WellFormed svc s' ∧ (r, s'.book) = s.book.close item := by
  obtain ⟨r, s', hok, hwf, -⟩ := resolveByFingerprint_ok h item
  refine ⟨r, s', hok, hwf, ?_⟩
  cases hfind : s.findActive item.fingerprint with
  | none =>
    simp only [resolveByFingerprint, hfind] at hok
    cases hok
    simp only [Book.close, activeId_book, hfind, Option.map_none]
  | some a =>
    obtain ⟨ha, hkey, hact⟩ := findActive_eq_some hfind
    have hupdate := book_update h.tick ha hact (resolved_timeless (svc.clock s.reads) item.actor item.reason)
    have hget : s.alerts.find? (fun b => b.id = a.id) = some a := find?_id h ha
    have hstatus : a.status ≠ .resolved := by simpa [Alert.active] using hact
    simp only [resolveByFingerprint, resolve, hfind, hget, hstatus, if_false] at hok
    cases hok
    simp only [Book.close, activeId_book, hfind, Option.map_some, hupdate, hkey]
    rfl

/-! ## Work on the book -/

def Book.Unique (b : Book φ) : Prop :=
  b.alerts.Pairwise (fun a c => ¬ (a.active ∧ c.active ∧ a.dedupKey = c.dedupKey))

theorem WellFormed.unique (h : WellFormed svc s) : s.book.Unique := by
  refine List.pairwise_map.mpr ((List.pairwise_map.mp h.ids_nodup).imp_of_mem ?_)
  rintro a c ha hc hid ⟨hacta, hactc, hkey⟩
  exact hid (by rw [h.one_active a ha c hc hacta hactc hkey])

section Work

variable {b : Book φ} {f g : Alert φ → Alert φ} {id : String}

theorem Book.Unique.split (hb : b.Unique) (h : b.activeId fp = some id) :
    ∃ before a after, b.alerts = before ++ a :: after ∧ a.id = id ∧ a.dedupKey = fp ∧ a.active ∧
      ∀ f, (b.write fp f).alerts = before ++ (f a).timeless :: after := by
  obtain ⟨a, hfind, rfl⟩ := Option.map_eq_some_iff.mp h
  obtain ⟨hp, before, after, hsplit, hbefore⟩ := List.find?_eq_some_iff_append.mp hfind
  simp only [Bool.and_eq_true, decide_eq_true_eq] at hp
  refine ⟨before, a, after, hsplit, rfl, hp.1, hp.2, fun f => ?_⟩
  have hafter : ∀ c ∈ after, ¬ (c.dedupKey = fp ∧ c.active = true) := by
    rintro c hc ⟨hkey, hact⟩
    rw [Book.Unique, hsplit] at hb
    obtain ⟨-, htail, -⟩ := List.pairwise_append.mp hb
    exact (List.pairwise_cons.mp htail).1 c hc ⟨hp.2, hact, hp.1.trans hkey.symm⟩
  have hskip : ∀ l : List (Alert φ), (∀ c ∈ l, ¬ (c.dedupKey = fp ∧ c.active = true)) →
      l.map (fun c => if c.dedupKey = fp && c.active then (f c).timeless else c) = l := by
    intro l hl
    refine (List.map_congr_left (fun c hc => ?_)).trans (List.map_id l)
    have := hl c hc
    simp_all
  simp only [Book.write, hsplit, List.map_append, List.map_cons, hp, decide_true, Bool.and_self, if_true]
  rw [hskip before (fun c hc => by simpa [imp_iff_not_or] using hbefore c hc), hskip after hafter]

theorem Keeps.activeId_write (hf : Keeps f) : (b.write fp' f).activeId fp = b.activeId fp := by
  simp only [Book.activeId, Book.write, List.find?_map, Option.map_map]
  have hrow : ∀ a : Alert φ, (if a.dedupKey = fp' && a.active then (f a).timeless else a).id = a.id ∧
      (if a.dedupKey = fp' && a.active then (f a).timeless else a).dedupKey = a.dedupKey ∧
      (if a.dedupKey = fp' && a.active then (f a).timeless else a).active = a.active := by
    intro a
    split
    · simp [hf.id, hf.dedupKey, hf.active]
    · simp
  congr 1
  · funext a
    exact (hrow a).1
  · congr 1
    funext a
    simp only [Function.comp_apply, (hrow a).2.1, (hrow a).2.2]

theorem Keeps.write_comm (hf : Keeps f) (hg : Keeps g) (hne : fp ≠ fp') :
    (b.write fp f).write fp' g = (b.write fp' g).write fp f := by
  simp only [Book.write, List.map_map, Book.mk.injEq, and_true]
  refine List.map_congr_left (fun a _ => ?_)
  simp only [Function.comp_apply]
  by_cases h₁ : a.dedupKey = fp <;> by_cases h₂ : a.dedupKey = fp' <;> by_cases hact : a.active = true <;>
    simp_all [hf.dedupKey, hf.active, hg.dedupKey, hg.active]

end Work

/-! ## The inputs in order and in two passes -/

structure Pass (φ : Type) where
  book : Book φ
  results : Nat → Option AlertResult

def Pass.take (uuid4 : Nat → String) (p : Pass φ) (item : AlertInput φ × Nat) : Pass φ :=
  ⟨(p.book.work uuid4 item.1).2, Function.update p.results item.2 (some (p.book.work uuid4 item.1).1)⟩

section Passes

variable {uuid4 : Nat → String} {p : Pass φ} {x y : AlertInput φ × Nat}

theorem work_of_active {b : Book φ} {data id} (h : b.activeId data.fingerprint = some id) :
    b.work uuid4 data = (refreshed id, b.write data.fingerprint (refresh data 0)) := by
  simp only [Book.work, h]

theorem work_of_inactive {b : Book φ} {data} (h : b.activeId data.fingerprint = none) :
    b.work uuid4 data =
      ({ alertId := uuid4 b.issued, opened := true, updated := false, transition := some .opened },
        ⟨b.alerts ++ [(newAlert data 0 (uuid4 b.issued)).timeless], b.issued + 1⟩) := by
  simp only [Book.work, h]

theorem activeId_work {b : Book φ} {id} (data : AlertInput φ) (h : b.activeId fp = some id) :
    (b.work uuid4 data).2.activeId fp = some id := by
  cases hdata : b.activeId data.fingerprint with
  | some id' =>
    rw [work_of_active hdata]
    exact ((keeps_refresh data 0).activeId_write).trans h
  | none =>
    rw [work_of_inactive hdata]
    obtain ⟨a, hfind, rfl⟩ := Option.map_eq_some_iff.mp h
    simp only [Book.activeId, List.find?_append, hfind, Option.some_or, Option.map_some]

theorem Pass.take_comm {id} (hx : p.book.activeId x.1.fingerprint = some id) (hne : x.1.fingerprint ≠ y.1.fingerprint)
    (hidx : y.2 ≠ x.2) : (p.take uuid4 y).take uuid4 x = (p.take uuid4 x).take uuid4 y := by
  have hkeeps := keeps_refresh x.1 0
  have hxy : (p.book.work uuid4 y.1).2.activeId x.1.fingerprint = some id := activeId_work y.1 hx
  have hsame : (p.book.write x.1.fingerprint (refresh x.1 0)).activeId y.1.fingerprint =
      p.book.activeId y.1.fingerprint := hkeeps.activeId_write
  simp only [Pass.take, work_of_active hx, work_of_active hxy, Pass.mk.injEq]
  cases hy : p.book.activeId y.1.fingerprint with
  | some id' =>
    rw [work_of_active hy, work_of_active (hsame.trans hy)]
    exact ⟨(keeps_refresh y.1 0).write_comm hkeeps hne.symm, Function.update_comm hidx _ _ _⟩
  | none =>
    rw [work_of_inactive hy, work_of_inactive (hsame.trans hy)]
    refine ⟨?_, Function.update_comm hidx _ _ _⟩
    have hrow : ¬ ((newAlert y.1 0 (uuid4 p.book.issued)).dedupKey = x.1.fingerprint) := hne.symm
    simp [Book.write, hrow]

theorem foldl_take_two_passes {snapshot : Dict String String} {items : List (AlertInput φ × Nat)}
    (hitems : items.Pairwise (fun y x => y.2 ≠ x.2))
    (hsnapshot : ∀ item ∈ items, (snapshot.get? item.1.fingerprint).isSome →
      (p.book.activeId item.1.fingerprint).isSome) :
    items.foldl (Pass.take uuid4) p =
      (items.filter (fun x => !(snapshot.get? x.1.fingerprint).isSome)).foldl (Pass.take uuid4)
        ((items.filter (fun x => (snapshot.get? x.1.fingerprint).isSome)).foldl (Pass.take uuid4) p) := by
  have hpair : items.Pairwise (fun y x => y.2 ≠ x.2 ∧ x ∈ items) :=
    hitems.imp_of_mem (fun _ hx hne => ⟨hne, hx⟩)
  refine foldl_two_passes (fun q : Pass φ => ∀ item ∈ items, (snapshot.get? item.1.fingerprint).isSome →
    (q.book.activeId item.1.fingerprint).isSome) ?_ ?_ hpair hsnapshot
  · intro q x hq item hitem hsome
    obtain ⟨id, hid⟩ := Option.isSome_iff_exists.mp (hq item hitem hsome)
    simp only [Pass.take, activeId_work x.1 hid, Option.isSome_some]
  · rintro q x y hq hx hy ⟨hidx, hxmem⟩
    obtain ⟨id, hid⟩ := Option.isSome_iff_exists.mp (hq x hxmem hx)
    have hne : x.1.fingerprint ≠ y.1.fingerprint := by
      intro heq
      rw [heq, hy] at hx
      cases hx
    exact Pass.take_comm hid hne hidx

end Passes

end QRadarDashboard.Alerts
