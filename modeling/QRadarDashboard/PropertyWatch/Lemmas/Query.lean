import QRadarDashboard.PropertyWatch.Query
import QRadarDashboard.Services.Lemmas.AqlValidator
import Mathlib.Data.Set.Card

/-!
# The text of a search, as the AQL lexer reads it
-/

namespace QRadarDashboard.PropertyWatch
open Lib
open Services (AqlPiece AqlQuote QuotesDoubled Lexed lexPieces quoteOf)

/-! ## Closed quotes -/

def plain (c : Char) : Bool := c ≠ '\'' && c ≠ '"' && c ≠ '-' && c ≠ '*'

abbrev PlainText (s : String) : Prop := s.toList.all plain = true

inductive Delimited : List AqlPiece → Prop
  | nil : Delimited []
  | code {c pieces} : plain c = true → Delimited pieces → Delimited (.code c :: pieces)
  | quoted {quote : AqlQuote} {body c pieces} : quote.char ∉ body → plain c = true → Delimited pieces →
      Delimited (.literal quote body true :: .code c :: pieces)

variable {pieces : List AqlPiece}

theorem quotesDoubled_of_not_mem {quote body} (h : quote ∉ body) : QuotesDoubled quote body := by
  induction body with
  | nil => exact .nil
  | cons c body ih =>
    rw [List.mem_cons, not_or] at h
    exact .plain (Ne.symm h.1) (ih h.2)

theorem Delimited.lexed (h : Delimited pieces) :
    Lexed (pieces.flatMap AqlPiece.text) pieces ∧ (pieces.flatMap AqlPiece.text).head? ≠ some '*' := by
  have hcode {c : Char} {rest : List AqlPiece} (hc : plain c = true) (ih : Lexed (rest.flatMap AqlPiece.text) rest ∧
      (rest.flatMap AqlPiece.text).head? ≠ some '*') :
      Lexed (c :: rest.flatMap AqlPiece.text) (.code c :: rest) ∧ c ≠ '*' ∧ c ≠ '\'' ∧ c ≠ '"' := by
    simp only [plain, ne_eq, Bool.and_eq_true, decide_eq_true_eq] at hc
    obtain ⟨⟨⟨hsingle, hdouble⟩, hdash⟩, hstar⟩ := hc
    refine ⟨.code (fun h => hdash h.1) (fun h => ih.2 h.2) ?_ ih.1, hstar, hsingle, hdouble⟩
    rw [quoteOf, if_neg hsingle, if_neg hdouble]
  induction h with
  | nil => exact ⟨.nil, by simp⟩
  | code hc _ ih =>
    obtain ⟨hlexed, hstar, _⟩ := hcode hc ih
    exact ⟨hlexed, by simpa [AqlPiece.text] using hstar⟩
  | @quoted quote body c rest hbody hc _ ih =>
    obtain ⟨hlexed, _, hsingle, hdouble⟩ := hcode hc ih
    have hends : (c :: rest.flatMap AqlPiece.text).head? ≠ some quote.char := by
      cases quote
      · exact fun h => hsingle (Option.some.inj h)
      · exact fun h => hdouble (Option.some.inj h)
    have hlit := Lexed.literal (quotesDoubled_of_not_mem hbody) hends hlexed
    refine ⟨by simpa [AqlPiece.text] using hlit, ?_⟩
    cases quote <;> simp [AqlPiece.text, AqlQuote.char]

theorem Delimited.lexPieces_eq (h : Delimited pieces) : lexPieces (pieces.flatMap AqlPiece.text) = pieces :=
  h.lexed.1.lexPieces_eq

def Closed (pieces : List AqlPiece) : Prop :=
  ∀ piece ∈ pieces, (∃ c, piece = .code c) ∨ ∃ quote body, piece = .literal quote body true

theorem Delimited.closed (h : Delimited pieces) : Closed pieces := by
  induction h with
  | nil => exact fun piece hpiece => absurd hpiece List.not_mem_nil
  | code _ _ ih => exact List.forall_mem_cons.mpr ⟨Or.inl ⟨_, rfl⟩, ih⟩
  | quoted _ _ _ ih =>
    exact List.forall_mem_cons.mpr ⟨Or.inr ⟨_, _, rfl⟩, List.forall_mem_cons.mpr ⟨Or.inl ⟨_, rfl⟩, ih⟩⟩

def Delimits (pieces : List AqlPiece) : Prop := ∀ rest, Delimited rest → Delimited (pieces ++ rest)

theorem Delimits.delimited (h : Delimits pieces) : Delimited pieces := by
  simpa using h [] .nil

theorem Delimits.append {more} (h : Delimits pieces) (h' : Delimits more) : Delimits (pieces ++ more) := by
  intro rest hrest
  rw [List.append_assoc]
  exact h _ (h' rest hrest)

theorem Delimits.flatMap {α : Type} {l : List α} {f : α → List AqlPiece} (h : ∀ x ∈ l, Delimits (f x)) :
    Delimits (l.flatMap f) := by
  induction l with
  | nil => exact fun rest hrest => hrest
  | cons x l ih =>
    rw [List.flatMap_cons]
    exact (h x List.mem_cons_self).append (ih (fun y hy => h y (List.mem_cons_of_mem _ hy)))

def codePieces (s : String) : List AqlPiece := s.toList.map .code

theorem delimits_code {s} (h : PlainText s) : Delimits (codePieces s) := by
  unfold codePieces
  unfold PlainText at h
  generalize s.toList = cs at h
  intro rest hrest
  induction cs with
  | nil => exact hrest
  | cons c cs ih =>
    rw [List.all_cons, Bool.and_eq_true] at h
    exact .code h.1 (ih h.2)

theorem delimits_quoted {quote body s} (hbody : quote.char ∉ body)
    (hs : PlainText s ∧ s.toList ≠ []) : Delimits (.literal quote body true :: codePieces s) := by
  obtain ⟨hplain, hne⟩ := hs
  intro rest hrest
  obtain ⟨c, cs, hcs⟩ := List.exists_cons_of_ne_nil hne
  rw [PlainText, hcs, List.all_cons, Bool.and_eq_true] at hplain
  have htail := delimits_code (s := String.ofList cs) (by rw [PlainText, String.toList_ofList]; exact hplain.2) rest hrest
  rw [codePieces, String.toList_ofList] at htail
  rw [codePieces, hcs]
  exact .quoted hbody hplain.1 htail

@[simp] theorem text_codePieces (s : String) : (codePieces s).flatMap AqlPiece.text = s.toList := by
  simp [codePieces, List.flatMap_map, AqlPiece.text]

/-! ## The pieces of a search -/

def namePiece (name : String) : AqlPiece := .literal .double name.toList true

def inPieces : List String → List AqlPiece
  | [] => codePieces ")"
  | [component] => .literal .single component.toList true :: codePieces ")"
  | component :: next :: rest => .literal .single component.toList true :: (codePieces "," ++ inPieces (next :: rest))

def selectPieces (item : String × Nat) : List AqlPiece :=
  (namePiece item.1 :: codePieces " AS ") ++ (namePiece ("p" ++ item.2.repr) :: codePieces ", ")

def presentPieces (name : String) : List AqlPiece := codePieces " AND " ++ (namePiece name :: codePieces " IS NOT NULL")

def pinPieces (item : String × List String) : List AqlPiece :=
  codePieces " AND " ++ ((namePiece item.1 :: codePieces " IN (") ++ inPieces item.2)

def groupPieces (name : String) : List AqlPiece := namePiece name :: codePieces ", "

def queryPieces (key bounds limit : String) (names : List String) (lists : List (List String)) : List AqlPiece :=
  codePieces "SELECT " ++ (names.zipIdx.flatMap selectPieces ++ (codePieces (key ++ " AS ") ++
    ((namePiece "k" :: codePieces (", " ++ "SUM(eventcount) AS ")) ++
    ((namePiece "events" :: codePieces (" FROM events " ++ bounds)) ++
    (names.flatMap presentPieces ++ ((names.zip lists).flatMap pinPieces ++ (codePieces " GROUP BY " ++
    (names.flatMap groupPieces ++ codePieces (key ++ " ORDER BY SUM(eventcount) DESC LIMIT " ++ limit)))))))))

theorem intercalate_concat {α : Type} (sep : List α) (xs : List (List α)) (y : List α) :
    sep.intercalate (xs ++ [y]) = xs.flatMap (fun x => x ++ sep) ++ y := by
  induction xs with
  | nil => simp
  | cons x xs ih =>
    rw [List.cons_append, List.intercalate_cons_of_ne_nil (by simp), ih, List.flatMap_cons]
    simp

theorem intercalate_pair {α : Type} (sep : List α) (xs : List (List α)) (y z : List α) :
    sep.intercalate (xs ++ [y, z]) = xs.flatMap (fun x => x ++ sep) ++ (y ++ (sep ++ z)) := by
  rw [List.append_cons, intercalate_concat, List.flatMap_append]
  simp

theorem text_inPieces (components : List String) : (inPieces components).flatMap AqlPiece.text =
    [','].intercalate (components.map (fun component => '\'' :: (component.toList ++ ['\'']))) ++ [')'] := by
  induction components with
  | nil => simp [inPieces]
  | cons component rest ih =>
    cases rest with
    | nil => simp [inPieces, AqlPiece.text, AqlQuote.char]
    | cons next rest =>
      rw [inPieces, List.flatMap_cons, List.flatMap_append, ih, List.map_cons (l := next :: rest),
        List.intercalate_cons_of_ne_nil (by simp)]
      simp [AqlPiece.text, AqlQuote.char]

def searchNames (spec : PwQuerySpec) : List String :=
  if spec.search = .totals then [] else spec.properties.map PwFieldReference.name

def searchBounds (spec : PwQuerySpec) (startMs endMs : Int) : String :=
  "WHERE " ++ scopeCondition spec.scopeKind spec.scopeIds ++ " AND starttime >= " ++ startMs.repr ++
    " AND starttime < " ++ endMs.repr

theorem text_namePiece (name : String) : (namePiece name).text = ("\"" ++ name ++ "\"").toList := by
  simp [namePiece, AqlPiece.text, AqlQuote.char]

theorem text_selectPieces (item : String × Nat) : (selectPieces item).flatMap AqlPiece.text =
    ("\"" ++ item.1 ++ "\"" ++ " AS \"p" ++ item.2.repr ++ "\"").toList ++ ", ".toList := by
  simp [selectPieces, text_namePiece]

theorem text_presentPieces (name : String) : (presentPieces name).flatMap AqlPiece.text =
    (" AND " ++ ("\"" ++ name ++ "\"") ++ " IS NOT NULL").toList := by
  simp [presentPieces, text_namePiece]

theorem text_pinPieces (item : String × List String) : (pinPieces item).flatMap AqlPiece.text =
    (" AND " ++ ("\"" ++ item.1 ++ "\"") ++ " IN (" ++
      ",".intercalate (item.2.map (fun component => "'" ++ component ++ "'")) ++ ")").toList := by
  simp [pinPieces, text_namePiece, text_inPieces, Function.comp_def]

theorem text_groupPieces (name : String) :
    (groupPieces name).flatMap AqlPiece.text = ("\"" ++ name ++ "\"").toList ++ ", ".toList := by
  simp [groupPieces, text_namePiece]

theorem buildQuery_text {spec startMs endMs bucketMs limit text}
    (h : buildQuery spec startMs endMs bucketMs limit = .ok text) : text.toList =
      (queryPieces ("starttime / " ++ bucketMs.repr) (searchBounds spec startMs endMs) limit.repr (searchNames spec)
        (inLists spec)).flatMap AqlPiece.text := by
  have hkey : " AS \"k\"".toList = " AS ".toList ++ ("\"" ++ "k" ++ "\"").toList := rfl
  have hevents : "SUM(eventcount) AS \"events\"".toList =
      "SUM(eventcount) AS ".toList ++ ("\"" ++ "events" ++ "\"").toList := rfl
  have hcolumns : " AS \"k\", SUM(eventcount) AS \"events\" FROM events ".toList =
      " AS \"k\"".toList ++ (", ".toList ++ ("SUM(eventcount) AS \"events\"".toList ++ " FROM events ".toList)) := rfl
  unfold buildQuery at h
  unfold searchNames
  split at h
  · cases h
  · split at h
    · rename_i htotals
      cases h
      rw [if_pos htotals]
      simp only [-String.reduceToList, queryPieces, List.flatMap_append, List.flatMap_cons, List.flatMap_nil,
        List.zipIdx_nil, List.zip_nil_left, text_codePieces, text_namePiece, String.toList_append, hcolumns, hkey,
        hevents, List.append_assoc, List.nil_append, searchBounds]
    · rename_i hgrouped
      cases h
      rw [if_neg hgrouped]
      simp only [-String.reduceToList, queryPieces, List.flatMap_append, List.flatMap_cons, text_codePieces,
        text_namePiece, String.toList_append, String.toList_intercalate, String.toList_join, List.map_append,
        List.map_cons, List.map_nil, intercalate_pair, List.append_assoc, searchBounds, hkey, hevents,
        List.flatMap_assoc, text_selectPieces, text_presentPieces, text_pinPieces, text_groupPieces, List.zipIdx_map,
        List.map_map, List.flatMap_map, intercalate_concat, List.zip_map_left, Function.comp_def, Prod.map, id]

/-! ## What the pieces say about what stands in the quotes -/

def hollow : AqlPiece → AqlPiece
  | .literal quote _ closed => .literal quote [] closed
  | piece => piece

def skeleton (text : List Char) : List AqlPiece := (lexPieces text).map hollow

theorem hollow_flatMap {α : Type} {f : α → List AqlPiece} {g : α → α} (h : ∀ x, (f x).map hollow = (f (g x)).map hollow)
    (l : List α) : (l.flatMap f).map hollow = ((l.map g).flatMap f).map hollow := by
  rw [List.map_flatMap, List.map_flatMap, List.flatMap_map]
  exact congrArg (fun f => l.flatMap f) (funext h)

theorem hollow_inPieces (components : List String) :
    (inPieces components).map hollow = (inPieces (components.map (fun _ => ""))).map hollow := by
  fun_induction inPieces components with
  | case1 => rfl
  | case2 component => rfl
  | case3 component next rest ih =>
    rw [List.map_cons, List.map_append, ih]
    rfl

theorem hollow_queryPieces (key bounds limit : String) (names : List String) (lists : List (List String)) :
    (queryPieces key bounds limit names lists).map hollow =
      (queryPieces key bounds limit (names.map (fun _ => "")) (lists.map (fun l => l.map (fun _ => "")))).map hollow := by
  have hselect := hollow_flatMap (f := selectPieces) (g := Prod.map (fun _ => "") id) (fun _ => rfl) names.zipIdx
  have hpresent := hollow_flatMap (f := presentPieces) (g := fun _ => "") (fun _ => rfl) names
  have hgroup := hollow_flatMap (f := groupPieces) (g := fun _ => "") (fun _ => rfl) names
  have hpin := hollow_flatMap (f := pinPieces) (g := Prod.map (fun _ => "") (fun l => l.map (fun _ => "")))
    (fun item => by
      simp only [pinPieces, List.map_append, hollow_inPieces item.2]
      rfl) (names.zip lists)
  simp only [queryPieces, List.map_append, hselect, hpresent, hgroup, hpin, List.zipIdx_map, List.zip_map]

def singleBodies (pieces : List AqlPiece) : List (List Char) :=
  pieces.filterMap (fun piece => match piece with
    | .literal .single body _ => some body
    | _ => none)

theorem singleBodies_code (s : String) : singleBodies (codePieces s) = [] := by
  simp [singleBodies, codePieces, List.filterMap_map]

theorem singleBodies_inPieces (components : List String) :
    singleBodies (inPieces components) = components.map String.toList := by
  fun_induction inPieces components with
  | case1 => exact singleBodies_code ")"
  | case2 component => exact congrArg (component.toList :: ·) (singleBodies_code ")")
  | case3 component next rest ih => exact congrArg (component.toList :: ·) ih

theorem singleBodies_queryPieces (key bounds limit : String) {names lists} (h : lists.length ≤ names.length) :
    singleBodies (queryPieces key bounds limit names lists) = lists.flatten.map String.toList := by
  have happend (p q : List AqlPiece) : singleBodies (p ++ q) = singleBodies p ++ singleBodies q := List.filterMap_append
  have hname (name s : String) : singleBodies (namePiece name :: codePieces s) = [] := singleBodies_code s
  have hflat {α : Type} (l : List α) (f : α → List AqlPiece) :
      singleBodies (l.flatMap f) = l.flatMap (fun x => singleBodies (f x)) := List.filterMap_flatMap
  have hpins : (names.zip lists).flatMap (fun item => item.2.map String.toList) = lists.flatten.map String.toList := by
    have hmap := List.flatMap_map Prod.snd (fun l : List String => l.map String.toList) (names.zip lists)
    rw [← hmap, List.map_snd_zip h, List.map_flatten, List.flatMap_def]
  have hnone {α : Type} (l : List α) : l.flatMap (fun _ => ([] : List (List Char))) = [] := by simp
  simp only [queryPieces, happend, hflat, selectPieces, presentPieces, pinPieces, groupPieces, hname, singleBodies_code,
    singleBodies_inPieces, hpins, hnone, List.append_nil, List.nil_append]

theorem delimits_name {name s} (hname : '"' ∉ name.toList) (hs : PlainText s ∧ s.toList ≠ []) :
    Delimits (namePiece name :: codePieces s) := delimits_quoted hname hs

theorem PlainText.append {s t} (h : PlainText s) (h' : PlainText t) : PlainText (s ++ t) := by
  rw [PlainText, String.toList_append, List.all_append, h, h']
  rfl

theorem delimits_inPieces {components} (h : ∀ component ∈ components, '\'' ∉ component.toList) :
    Delimits (inPieces components) := by
  fun_induction inPieces components with
  | case1 => exact delimits_code (by decide)
  | case2 component =>
    exact @delimits_quoted .single _ _ (h component List.mem_cons_self) (by decide)
  | case3 component next rest ih =>
    exact (@delimits_quoted .single _ _ (h component List.mem_cons_self) (by decide)).append
      (ih (fun c hc => h c (List.mem_cons_of_mem _ hc)))

theorem plainText_nat (n : Nat) : PlainText n.repr := by
  rw [PlainText, Nat.toList_repr, List.all_eq_true]
  intro c hc
  have hdigit := Nat.isDigit_of_mem_toDigits (by decide) (by decide) hc
  simp only [plain, ne_eq, Bool.and_eq_true, decide_eq_true_eq]
  refine ⟨⟨⟨?_, ?_⟩, ?_⟩, ?_⟩ <;> rintro rfl <;> exact absurd hdigit (by decide)

theorem plainText_int {i : Int} (h : 0 ≤ i) : PlainText i.repr := by
  obtain ⟨n, rfl⟩ := Int.eq_ofNat_of_zero_le h
  exact plainText_nat n

theorem delimits_selectPieces {item} (h : '"' ∉ item.1.toList) : Delimits (selectPieces item) := by
  have hindex : PlainText ("p" ++ item.2.repr) := PlainText.append (by decide) (plainText_nat _)
  refine (delimits_name h (by decide)).append (delimits_name (fun hmem => ?_) (by decide))
  exact absurd (List.all_eq_true.mp hindex _ hmem) (by decide)

theorem delimits_queryPieces {key bounds limit names lists} (hkey : PlainText key) (hbounds : PlainText bounds)
    (hlimit : PlainText limit) (hnames : ∀ name ∈ names, '"' ∉ name.toList)
    (hlists : ∀ components ∈ lists, ∀ component ∈ components, '\'' ∉ component.toList) :
    Delimits (queryPieces key bounds limit names lists) := by
  have hselect : Delimits (names.zipIdx.flatMap selectPieces) :=
    .flatMap (fun item hitem => delimits_selectPieces (hnames _ (List.fst_mem_of_mem_zipIdx hitem)))
  have hpresent : Delimits (names.flatMap presentPieces) :=
    .flatMap (fun name hname => (delimits_code (by decide)).append (delimits_name (hnames name hname) (by decide)))
  have hpins : Delimits ((names.zip lists).flatMap pinPieces) := .flatMap (fun item hitem => by
    obtain ⟨hname, hlist⟩ := List.of_mem_zip hitem
    exact (delimits_code (by decide)).append
      ((delimits_name (hnames _ hname) (by decide)).append (delimits_inPieces (hlists _ hlist))))
  have hgroup : Delimits (names.flatMap groupPieces) :=
    .flatMap (fun name hname => delimits_name (hnames name hname) (by decide))
  have htail : Delimits (codePieces (key ++ " ORDER BY SUM(eventcount) DESC LIMIT " ++ limit)) :=
    delimits_code ((hkey.append (by decide)).append hlimit)
  have hevents : Delimits (namePiece "events" :: codePieces (" FROM events " ++ bounds)) :=
    delimits_name (by decide) ⟨PlainText.append (by decide) hbounds, by simp⟩
  exact (delimits_code (by decide)).append (hselect.append ((delimits_code (hkey.append (by decide))).append
    ((delimits_name (by decide) (by decide)).append (hevents.append (hpresent.append (hpins.append
      ((delimits_code (by decide)).append (hgroup.append htail))))))))

/-! ## What an accepted search has -/

structure QueryAccepted (u : UnicodeTables) (plan : PwSearchPlan) (maxSources : Nat) (spec : PwQuerySpec) : Prop where
  search : spec.search = plan.search
  scope : validateScopeIds plan.scopeKind plan.scopeIds maxSources = .ok spec.scopeIds
  few : plan.properties.length ≤ maxProperties
  references : plan.properties.mapM PwFieldReference.fromPair = .ok spec.properties
  named : plan.search ≠ .totals → spec.properties ≠ []
  checked : ∀ raw ∈ plan.pinned, raw.length = spec.properties.length ∧
    ∃ entry, raw.mapM (validatePinnedValue u) = .ok entry
  pinned : ∀ entry ∈ spec.pinned, ∃ raw : List String, raw.length = spec.properties.length ∧
    raw.mapM (validatePinnedValue u) = .ok entry
  pins : plan.search = .pinned → plan.pinned ≠ [] ∧ spec.pinned ≠ []

theorem validateQueryInputs_ok {u plan maxSources spec}
    (h : validateQueryInputs u plan maxSources = .ok spec) : QueryAccepted u plan maxSources spec := by
  unfold validateQueryInputs at h
  obtain ⟨ids, hids, h⟩ := bind_ok h
  split at h
  · cases h
  · rename_i hfew
    obtain ⟨references, hreferences, h⟩ := bind_ok h
    dsimp only at h
    split at h
    · cases h
    · split at h
      · cases h
      · rename_i hnamed
        obtain ⟨tuples, htuples, h⟩ := bind_ok h
        split at h
        · cases h
        · rename_i hpins
          split at h
          · cases h
          · cases h
            refine ⟨rfl, hids, not_lt.mp hfew, hreferences, fun hsearch hnil => hnamed ⟨hsearch, hnil⟩,
              fun raw hraw => ?_, fun entry hentry => ?_, fun hsearch => ⟨fun hnil => ?_, fun hnil => ?_⟩⟩
            · obtain ⟨entry, hentry⟩ := exists_ok_of_mapM htuples raw hraw
              split at hentry
              · cases hentry
              · rename_i hlength
                exact ⟨not_not.mp hlength, entry, hentry⟩
            · obtain ⟨raw, _, hraw⟩ := exists_of_mem_mapM htuples (by simpa [fromKeys] using hentry)
              split at hraw
              · cases hraw
              · rename_i hlength
                exact ⟨raw, not_not.mp hlength, hraw⟩
            · rw [hnil] at htuples
              cases htuples
              exact hpins ⟨hsearch, rfl⟩
            · exact hpins ⟨hsearch, by simpa [fromKeys] using hnil⟩

theorem name_no_quote {pair reference}
    (h : PwFieldReference.fromPair pair = .ok reference) : '"' ∉ reference.name.toList := by
  unfold PwFieldReference.fromPair at h
  split at h
  · cases h
  · rename_i kind _
    unfold PwFieldReference.check at h
    cases kind with
    | normalized =>
      dsimp only at h
      split_ifs at h with hlisted
      cases h
      rw [List.mem_singleton.mp hlisted]
      decide
    | customProperty =>
      dsimp only at h
      split_ifs at h with hname
      cases h
      unfold propertyName at hname
      split at hname
      · cases hname
      · rename_i c rest heq
        simp only [Bool.and_eq_true] at hname
        obtain ⟨⟨hstart, _⟩, hrest⟩ := hname
        rw [heq]
        intro hmem
        rcases List.mem_cons.mp hmem with rfl | hmem
        · exact absurd hstart (by decide)
        · exact absurd (List.all_eq_true.mp hrest _ hmem) (by decide)

theorem pinned_no_quote {u value checked} (h : validatePinnedValue u value = .ok checked) : '\'' ∉ checked.toList := by
  unfold validatePinnedValue at h
  dsimp only at h
  split_ifs at h with _ _ hvalid
  cases h
  simp only [Bool.and_eq_true] at hvalid
  exact fun hmem => absurd (List.all_eq_true.mp hvalid.1.1.1 _ hmem) (by decide)

theorem plainText_scopeCondition {kind ids found maxSources} (h : validateScopeIds kind ids maxSources = .ok found)
    (kind' : PwScopeKind) : PlainText (scopeCondition kind' found) := by
  have hnonneg : ∀ i ∈ found, 0 ≤ i := by
    unfold validateScopeIds at h
    split at h
    · cases h
    · rename_i hany
      simp only [List.any_eq_true, decide_eq_true_eq, not_exists, not_and] at hany
      intro i hi
      have hmem : i ∈ sortOn (fun i => i) ids.dedup := by
        dsimp only at h
        split_ifs at h <;> cases h <;> exact hi
      exact not_lt.mp (hany i (by simpa [mem_sortOn] using hmem))
  have hvalues : PlainText (", ".intercalate (found.map Int.repr)) := by
    clear h
    induction found with
    | nil => decide
    | cons i rest ih =>
      have hi := plainText_int (hnonneg i List.mem_cons_self)
      have hrest := ih (fun j hj => hnonneg j (List.mem_cons_of_mem _ hj))
      cases rest with
      | nil => simpa using hi
      | cons j rest =>
        rw [List.map_cons, String.intercalate_cons_of_ne_nil (by simp)]
        exact (hi.append (by decide)).append hrest
  unfold scopeCondition
  split
  · exact PlainText.append (by decide) hvalues
  · exact (PlainText.append (by decide) hvalues).append (by decide)

theorem buildQuery_cases (spec spec' : PwQuerySpec) (startMs endMs bucketMs limit : Int) :
    (∃ e, buildQuery spec startMs endMs bucketMs limit = .error e ∧
      buildQuery spec' startMs endMs bucketMs limit = .error e) ∨
    ∃ text text', buildQuery spec startMs endMs bucketMs limit = .ok text ∧
      buildQuery spec' startMs endMs bucketMs limit = .ok text' := by
  by_cases hbad : startMs ≤ 0 ∨ endMs ≤ 0 ∨ bucketMs ≤ 0 ∨ limit ≤ 0
  · exact Or.inl ⟨_, if_pos hbad, if_pos hbad⟩
  · have hok (spec : PwQuerySpec) : ∃ text, buildQuery spec startMs endMs bucketMs limit = .ok text := by
      rw [buildQuery, if_neg hbad]
      dsimp only
      split
      · exact ⟨_, rfl⟩
      · exact ⟨_, rfl⟩
    obtain ⟨text, htext⟩ := hok spec
    obtain ⟨text', htext'⟩ := hok spec'
    exact Or.inr ⟨text, text', htext, htext'⟩

theorem lexPieces_buildQuery {u plan maxSources spec}
    (h : QueryAccepted u plan maxSources spec) {startMs endMs bucketMs limit : Int} {text}
    (htext : buildQuery spec startMs endMs bucketMs limit = .ok text) :
    lexPieces text.toList = queryPieces ("starttime / " ++ bucketMs.repr) (searchBounds spec startMs endMs) limit.repr
      (searchNames spec) (inLists spec) ∧ Closed (lexPieces text.toList) := by
  have hpositive : ¬ (startMs ≤ 0 ∨ endMs ≤ 0 ∨ bucketMs ≤ 0 ∨ limit ≤ 0) := by
    intro hbad
    rw [buildQuery, if_pos hbad] at htext
    cases htext
  have hkey : PlainText ("starttime / " ++ bucketMs.repr) := PlainText.append (by decide) (plainText_int (by omega))
  have hbounds : PlainText (searchBounds spec startMs endMs) := by
    have hscope := plainText_scopeCondition h.scope spec.scopeKind
    have hstart : PlainText startMs.repr := plainText_int (by omega)
    have hend : PlainText endMs.repr := plainText_int (by omega)
    exact ((((PlainText.append (by decide) hscope).append (by decide)).append hstart).append (by decide)).append hend
  have hnames : ∀ name ∈ searchNames spec, '"' ∉ name.toList := by
    intro name hname
    unfold searchNames at hname
    split at hname
    · cases hname
    · obtain ⟨reference, hmem, rfl⟩ := List.mem_map.mp hname
      obtain ⟨pair, _, hpair⟩ := exists_of_mem_mapM h.references hmem
      exact name_no_quote hpair
  have hlists : ∀ components ∈ inLists spec, ∀ component ∈ components, '\'' ∉ component.toList := by
    intro components hcomponents component hcomponent
    unfold inLists at hcomponents
    split at hcomponents
    · obtain ⟨position, _, rfl⟩ := List.mem_map.mp hcomponents
      rw [mem_sortOn, List.mem_dedup] at hcomponent
      obtain ⟨entry, hentry, hget⟩ := List.mem_filterMap.mp hcomponent
      obtain ⟨raw, _, hraw⟩ := h.pinned entry hentry
      obtain ⟨value, _, hvalue⟩ := exists_of_mem_mapM hraw (List.mem_of_getElem? hget)
      exact pinned_no_quote hvalue
    · cases hcomponents
  have hdelimited := (delimits_queryPieces hkey hbounds (plainText_int (by omega : 0 ≤ limit)) hnames hlists).delimited
  have hpieces := hdelimited.lexPieces_eq
  rw [← buildQuery_text htext] at hpieces
  exact ⟨hpieces, hpieces ▸ hdelimited.closed⟩

/-! ## The tuples that the conditions admit -/

theorem encard_forall₂ {α : Type} {lists} (h : ∀ l ∈ lists, l.Nodup) :
    {tuple : List α | List.Forall₂ (fun l x => x ∈ l) lists tuple}.encard = (lists.map List.length).prod := by
  classical
  induction lists with
  | nil =>
    have hnil : {tuple : List α | List.Forall₂ (fun (l : List α) x => x ∈ l) [] tuple} = {[]} := by
      ext tuple
      simp
    rw [hnil, Set.encard_singleton]
    rfl
  | cons l lists ih =>
    have hcons : {tuple : List α | List.Forall₂ (fun l x => x ∈ l) (l :: lists) tuple} =
        (fun p : α × List α => p.1 :: p.2) ''
          ({x | x ∈ l} ×ˢ {tuple : List α | List.Forall₂ (fun l x => x ∈ l) lists tuple}) := by
      ext tuple
      constructor
      · rintro (_ | ⟨hx, htuple⟩)
        exact ⟨(_, _), ⟨hx, htuple⟩, rfl⟩
      · rintro ⟨⟨x, tuple⟩, ⟨hx, htuple⟩, rfl⟩
        exact .cons hx htuple
    have hinjective : Function.Injective (fun p : α × List α => p.1 :: p.2) := by
      rintro ⟨x, xs⟩ ⟨y, ys⟩ heq
      cases heq
      rfl
    have hlist : {x | x ∈ l}.encard = l.length := by
      rw [← List.toFinset_card_of_nodup (h l List.mem_cons_self), ← Set.encard_coe_eq_coe_finsetCard,
        List.coe_toFinset]
    rw [hcons, hinjective.encard_image, Set.encard_prod, hlist, ih (fun l hl => h l (List.mem_cons_of_mem _ hl)),
      List.map_cons, List.prod_cons, Nat.cast_mul]

theorem length_pinnedComponents (spec : PwQuerySpec) : (pinnedComponents spec).length = spec.properties.length := by
  simp [pinnedComponents]

theorem length_inLists_le (spec : PwQuerySpec) : (inLists spec).length ≤ (searchNames spec).length := by
  unfold inLists searchNames
  split
  · rename_i hpinned
    rw [if_neg (by rw [hpinned]; decide), length_pinnedComponents, List.length_map]
  · exact Nat.zero_le _

theorem nodup_pinnedComponents {spec components} (h : components ∈ pinnedComponents spec) : components.Nodup := by
  obtain ⟨position, _, rfl⟩ := List.mem_map.mp h
  exact (sortOn_perm _).nodup_iff.mpr (List.nodup_dedup _)

theorem satisfying_pinned {spec} (h : spec.search = .pinned) :
    satisfying spec = {tuple | List.Forall₂ (fun l x => x ∈ l) (pinnedComponents spec) tuple} := by
  ext tuple
  show tuple.length = _ ∧ (∀ item ∈ (inLists spec).zip tuple, _) ↔ List.Forall₂ _ _ _
  rw [inLists, if_pos h, List.forall₂_iff_zip, length_pinnedComponents, eq_comm]
  exact and_congr_right (fun _ => ⟨fun hall _ _ hmem => hall _ hmem, fun hall item hitem => hall hitem⟩)

theorem pinned_satisfying {spec} (h : spec.search = .pinned) {entry}
    (hentry : entry ∈ spec.pinned) (hlength : entry.length = spec.properties.length) : entry ∈ satisfying spec := by
  rw [satisfying_pinned h]
  refine List.forall₂_iff_get.mpr ⟨(length_pinnedComponents spec).trans hlength.symm, ?_⟩
  intro position _ hposition
  simp only [pinnedComponents, List.get_eq_getElem, List.getElem_map, List.getElem_range]
  rw [mem_sortOn, List.mem_dedup]
  exact List.mem_filterMap.mpr ⟨entry, hentry, List.getElem?_eq_getElem hposition⟩

end QRadarDashboard.PropertyWatch
