import QRadarDashboard.Services.AqlValidator
import QRadarDashboard.Lib.Except

/-!
# Literals, comments and the numbers of a query
-/

namespace QRadarDashboard.Services
open Lib

/-! ## Where a literal and a comment end -/

inductive QuotesDoubled (quote : Char) : List Char → Prop
  | nil : QuotesDoubled quote []
  | plain {c body} : c ≠ quote → QuotesDoubled quote body → QuotesDoubled quote (c :: body)
  | doubled {body} : QuotesDoubled quote body → QuotesDoubled quote (quote :: quote :: body)

def NoCommentEnd (body : List Char) : Prop := ¬ ['*', '/'] <:+: body

theorem noCommentEnd_cons {c body} :
    NoCommentEnd (c :: body) ↔ ¬ (c = '*' ∧ body.head? = some '/') ∧ NoCommentEnd body := by
  have hstart : ['*', '/'] <+: c :: body ↔ c = '*' ∧ body.head? = some '/' := by
    rw [List.cons_prefix_cons, eq_comm]
    refine and_congr_right (fun _ => ?_)
    cases body <;> simp [List.cons_prefix_cons, eq_comm]
  simp only [NoCommentEnd, List.infix_cons_iff, hstart, not_or]

theorem blockBody_sound {text body after} (h : blockBody text = (body, after)) :
    NoCommentEnd body ∧ text = body ++ (after.map (fun after => '*' :: '/' :: after)).getD [] := by
  induction text generalizing body with
  | nil =>
    cases h
    exact ⟨by simp [NoCommentEnd], rfl⟩
  | cons c rest ih =>
    rw [blockBody] at h
    split at h
    · rename_i hend
      obtain ⟨rfl, hhead⟩ := hend
      obtain ⟨tail, rfl⟩ := List.head?_eq_some_iff.mp hhead
      cases h
      exact ⟨by simp [NoCommentEnd], rfl⟩
    · rename_i hend
      obtain ⟨hbody, hafter⟩ := Prod.mk.inj h
      obtain ⟨hno, htext⟩ := ih (Prod.ext rfl hafter)
      subst hbody
      refine ⟨noCommentEnd_cons.mpr ⟨?_, hno⟩, congrArg (c :: ·) htext⟩
      rintro ⟨rfl, hhead⟩
      have hfirst := congrArg List.head? htext
      rw [List.head?_append, hhead] at hfirst
      exact hend ⟨rfl, hfirst⟩

theorem blockBody_closed {body} (after : List Char) (h : NoCommentEnd body) :
    blockBody (body ++ '*' :: '/' :: after) = (body, some after) := by
  induction body with
  | nil => rfl
  | cons c body ih =>
    obtain ⟨hstart, hbody⟩ := noCommentEnd_cons.mp h
    rw [List.cons_append, blockBody, if_neg, ih hbody]
    rintro ⟨rfl, hhead⟩
    cases body with
    | nil => cases hhead
    | cons d body => exact hstart ⟨rfl, hhead⟩

theorem blockBody_open {body} (h : NoCommentEnd body) : blockBody body = (body, none) := by
  induction body with
  | nil => rfl
  | cons c body ih =>
    obtain ⟨hstart, hbody⟩ := noCommentEnd_cons.mp h
    rw [blockBody, if_neg hstart, ih hbody]

theorem literalBody_sound {quote text body after}
    (h : literalBody quote text = (body, after)) : QuotesDoubled quote body ∧
      text = body ++ (after.map (fun after => quote :: after)).getD [] ∧ ∀ rest ∈ after, rest.head? ≠ some quote := by
  fun_induction literalBody quote text generalizing body with
  | case1 =>
    cases h
    exact ⟨.nil, rfl, by simp⟩
  | case2 =>
    cases h
    exact ⟨.nil, rfl, by simp⟩
  | case3 c hne =>
    cases h
    exact ⟨.plain hne .nil, rfl, by simp⟩
  | case4 rest ih =>
    obtain ⟨rfl, hafter⟩ := Prod.mk.inj h
    obtain ⟨hdoubled, htext, hhead⟩ := ih (Prod.ext rfl hafter)
    exact ⟨.doubled hdoubled, congrArg (fun rest => quote :: quote :: rest) htext, hhead⟩
  | case5 d rest hne =>
    cases h
    refine ⟨.nil, rfl, fun rest hrest => ?_⟩
    cases hrest
    exact fun hd => hne (Option.some.inj hd)
  | case6 c d rest hne ih =>
    obtain ⟨rfl, hafter⟩ := Prod.mk.inj h
    obtain ⟨hdoubled, htext, hhead⟩ := ih (Prod.ext rfl hafter)
    exact ⟨.plain hne hdoubled, congrArg (c :: ·) htext, hhead⟩

theorem literalBody_plain {quote c} (h : c ≠ quote) (rest : List Char) :
    literalBody quote (c :: rest) = (c :: (literalBody quote rest).1, (literalBody quote rest).2) := by
  cases rest with
  | nil => exact if_neg h
  | cons d rest => rw [literalBody, if_neg h]

theorem literalBody_doubled (quote : Char) (rest : List Char) : literalBody quote (quote :: quote :: rest) =
    (quote :: quote :: (literalBody quote rest).1, (literalBody quote rest).2) := by
  rw [literalBody, if_pos rfl, if_pos rfl]

theorem literalBody_closed {quote body after} (h : QuotesDoubled quote body)
    (hafter : after.head? ≠ some quote) : literalBody quote (body ++ quote :: after) = (body, some after) := by
  induction h with
  | nil =>
    cases after with
    | nil => exact if_pos rfl
    | cons d after =>
      rw [List.nil_append, literalBody, if_pos rfl, if_neg (fun hd => hafter (congrArg some hd))]
  | plain hne _ ih => rw [List.cons_append, literalBody_plain hne, ih]
  | doubled _ ih => rw [List.cons_append, List.cons_append, literalBody_doubled, ih]

theorem literalBody_open {quote body} (h : QuotesDoubled quote body) : literalBody quote body = (body, none) := by
  induction h with
  | nil => rfl
  | plain hne _ ih => rw [literalBody_plain hne, ih]
  | doubled _ ih => rw [literalBody_doubled, ih]

/-! ## The grammar of the lexer -/

inductive Lexed : List Char → List AqlPiece → Prop
  | nil : Lexed [] []
  | code {c rest pieces} (notLine : ¬ (c = '-' ∧ rest.head? = some '-'))
      (notBlock : ¬ (c = '/' ∧ rest.head? = some '*')) (notQuote : quoteOf c = none) :
      Lexed rest pieces → Lexed (c :: rest) (.code c :: pieces)
  | lineComment {body after pieces} (inLine : '\n' ∉ body) (ends : ∀ c, after.head? = some c → c = '\n') :
      Lexed after pieces → Lexed ('-' :: '-' :: (body ++ after)) (.lineComment body :: pieces)
  | blockComment {body after pieces} (inside : NoCommentEnd body) :
      Lexed after pieces → Lexed ('/' :: '*' :: (body ++ '*' :: '/' :: after)) (.blockComment body true :: pieces)
  | openComment {body} (inside : NoCommentEnd body) : Lexed ('/' :: '*' :: body) [.blockComment body false]
  | literal {quote : AqlQuote} {body after pieces} (inside : QuotesDoubled quote.char body)
      (ends : after.head? ≠ some quote.char) :
      Lexed after pieces → Lexed (quote.char :: (body ++ quote.char :: after)) (.literal quote body true :: pieces)
  | openLiteral {quote : AqlQuote} {body} (inside : QuotesDoubled quote.char body) :
      Lexed (quote.char :: body) [.literal quote body false]

theorem quoteOf_eq_some {c quote} (h : quoteOf c = some quote) : c = quote.char := by
  unfold quoteOf at h
  split at h
  · rename_i hc
    cases h
    exact hc
  · split at h
    · rename_i hc
      cases h
      exact hc
    · cases h

theorem quoteOf_char (quote : AqlQuote) : quoteOf quote.char = some quote := by cases quote <;> decide

theorem takeWhile_line (rest : List Char) : '\n' ∉ rest.takeWhile (fun d => d ≠ '\n') := by
  intro hmem
  have := List.mem_takeWhile_imp hmem
  simp at this

theorem head_dropWhile_line (rest : List Char) :
    ∀ c, (rest.dropWhile (fun d => d ≠ '\n')).head? = some c → c = '\n' := by
  intro c hc
  have h := List.head?_dropWhile_not (fun d => decide (d ≠ '\n')) rest
  rw [hc] at h
  simpa using h

theorem lexed (text : List Char) : Lexed text (lexPieces text) := by
  fun_induction lexPieces text with
  | case1 => exact .nil
  | case2 c rest h ih =>
    obtain ⟨rfl, hhead⟩ := h
    obtain ⟨tail, rfl⟩ := List.head?_eq_some_iff.mp hhead
    have := Lexed.lineComment (takeWhile_line tail) (head_dropWhile_line tail) ih
    rwa [List.takeWhile_append_dropWhile] at this
  | case3 c rest _ h body after hbody ih =>
    obtain ⟨rfl, hhead⟩ := h
    obtain ⟨tail, rfl⟩ := List.head?_eq_some_iff.mp hhead
    obtain ⟨hno, htext⟩ := blockBody_sound hbody
    rw [List.tail_cons] at htext
    rw [htext]
    exact .blockComment hno ih
  | case4 c rest _ h body hbody =>
    obtain ⟨rfl, hhead⟩ := h
    obtain ⟨tail, rfl⟩ := List.head?_eq_some_iff.mp hhead
    obtain ⟨hno, htext⟩ := blockBody_sound hbody
    rw [List.tail_cons] at htext
    rw [htext, Option.map_none, Option.getD_none, List.append_nil]
    exact .openComment hno
  | case5 c rest hline hblock hquote ih => exact .code hline hblock hquote ih
  | case6 c rest _ _ quote hquote body after hbody ih =>
    obtain rfl := quoteOf_eq_some hquote
    obtain ⟨hdoubled, htext, hafter⟩ := literalBody_sound hbody
    rw [htext]
    exact .literal hdoubled (hafter after rfl) ih
  | case7 c rest _ _ quote hquote body hbody =>
    obtain rfl := quoteOf_eq_some hquote
    obtain ⟨hdoubled, htext, -⟩ := literalBody_sound hbody
    rw [htext, Option.map_none, Option.getD_none, List.append_nil]
    exact .openLiteral hdoubled

theorem lexPieces_quote (quote : AqlQuote) (rest : List Char) : lexPieces (quote.char :: rest) =
    ((literalBody quote.char rest).2.map (fun after =>
      .literal quote (literalBody quote.char rest).1 true :: lexPieces after)).getD
        [.literal quote (literalBody quote.char rest).1 false] := by
  have hline : ¬ (quote.char = '-' ∧ rest.head? = some '-') := by cases quote <;> exact fun h => absurd h.1 (by decide)
  have hblock : ¬ (quote.char = '/' ∧ rest.head? = some '*') := by cases quote <;> exact fun h => absurd h.1 (by decide)
  rw [lexPieces, if_neg hline, if_neg hblock]
  simp only [quoteOf_char]
  split
  · rename_i hbody
    rw [hbody]
    rfl
  · rename_i hbody
    rw [hbody]
    rfl

theorem lexPieces_block (rest : List Char) : lexPieces ('/' :: '*' :: rest) =
    ((blockBody rest).2.map (fun after => .blockComment (blockBody rest).1 true :: lexPieces after)).getD
      [.blockComment (blockBody rest).1 false] := by
  rw [lexPieces, if_neg (fun h => absurd h.1 (by decide)), if_pos ⟨rfl, rfl⟩]
  split
  · rename_i hbody
    rw [List.tail_cons] at hbody
    rw [hbody]
    rfl
  · rename_i hbody
    rw [List.tail_cons] at hbody
    rw [hbody]
    rfl

theorem Lexed.lexPieces_eq {text pieces} (h : Lexed text pieces) : lexPieces text = pieces := by
  induction h with
  | nil => rw [lexPieces]
  | code hline hblock hquote _ ih =>
    rw [lexPieces, if_neg hline, if_neg hblock]
    simp only [hquote, ih]
  | @lineComment body after pieces hline hends _ ih =>
    have hbody : ∀ c ∈ body, decide (c ≠ '\n') = true := by
      intro c hc
      exact decide_eq_true (fun hcn => hline (hcn ▸ hc))
    have hafter : after.takeWhile (fun d => d ≠ '\n') = [] ∧ after.dropWhile (fun d => d ≠ '\n') = after := by
      cases after with
      | nil => exact ⟨rfl, rfl⟩
      | cons c after =>
        obtain rfl := hends c rfl
        exact ⟨rfl, rfl⟩
    rw [lexPieces, if_pos ⟨rfl, rfl⟩, List.tail_cons, List.takeWhile_append_of_pos hbody,
      List.dropWhile_append_of_pos hbody, hafter.1, hafter.2, List.append_nil, ih]
  | @blockComment body after pieces hinside _ ih =>
    rw [lexPieces_block, blockBody_closed after hinside, Option.map_some, Option.getD_some, ih]
  | openComment hinside => rw [lexPieces_block, blockBody_open hinside, Option.map_none, Option.getD_none]
  | literal hinside hends _ ih =>
    rw [lexPieces_quote, literalBody_closed hinside hends, Option.map_some, Option.getD_some, ih]
  | openLiteral hinside => rw [lexPieces_quote, literalBody_open hinside, Option.map_none, Option.getD_none]

/-! ## Replaced contents -/

/-- Another content of a literal or a comment between the same delimiters. -/
inductive AqlPiece.Replaced : AqlPiece → AqlPiece → Prop
  | code (c) : Replaced (.code c) (.code c)
  | lineComment (body) {body'} : '\n' ∉ body' → Replaced (.lineComment body) (.lineComment body')
  | blockComment (body closed) {body'} : NoCommentEnd body' →
      Replaced (.blockComment body closed) (.blockComment body' closed)
  | literal (quote body closed) {body'} : QuotesDoubled quote.char body' →
      Replaced (.literal quote body closed) (.literal quote body' closed)

theorem AqlPiece.Replaced.head_text {piece piece' : AqlPiece} (h : piece.Replaced piece') :
    ∃ c tail tail', piece.text = c :: tail ∧ piece'.text = c :: tail' := by
  cases h with
  | code c => exact ⟨c, [], [], rfl, rfl⟩
  | lineComment => exact ⟨'-', _, _, rfl, rfl⟩
  | blockComment => exact ⟨'/', _, _, rfl, rfl⟩
  | literal quote => exact ⟨quote.char, _, _, rfl, rfl⟩

theorem head_of_replaced {pieces pieces' : List AqlPiece} (h : List.Forall₂ AqlPiece.Replaced pieces pieces') :
    (pieces'.flatMap AqlPiece.text).head? = (pieces.flatMap AqlPiece.text).head? := by
  cases h with
  | nil => rfl
  | cons hpiece _ =>
    obtain ⟨c, tail, tail', htext, htext'⟩ := hpiece.head_text
    simp [htext, htext']

theorem Lexed.text_eq {text pieces} (h : Lexed text pieces) : pieces.flatMap AqlPiece.text = text := by
  induction h with
  | nil => rfl
  | code _ _ _ _ ih => rw [List.flatMap_cons, ih]; rfl
  | lineComment _ _ _ ih => rw [List.flatMap_cons, ih]; rfl
  | blockComment _ _ ih => simp [ih, AqlPiece.text]
  | openComment => simp [AqlPiece.text]
  | literal _ _ _ ih => simp [ih, AqlPiece.text]
  | openLiteral => simp [AqlPiece.text]

theorem Lexed.replaced {text pieces pieces'} (h : Lexed text pieces)
    (hreplaced : List.Forall₂ AqlPiece.Replaced pieces pieces') : Lexed (pieces'.flatMap AqlPiece.text) pieces' := by
  induction h generalizing pieces' with
  | nil =>
    cases hreplaced
    exact .nil
  | code hline hblock hquote hrest ih =>
    cases hreplaced with
    | cons hpiece hreplaced =>
      cases hpiece
      have hhead := head_of_replaced hreplaced
      rw [hrest.text_eq] at hhead
      rw [← hhead] at hline hblock
      exact .code hline hblock hquote (ih hreplaced)
  | lineComment _ hends hrest ih =>
    cases hreplaced with
    | cons hpiece hreplaced =>
      have hhead := head_of_replaced hreplaced
      rw [hrest.text_eq] at hhead
      rw [← hhead] at hends
      cases hpiece with
      | lineComment _ hinside => exact .lineComment hinside hends (ih hreplaced)
  | blockComment _ hrest ih =>
    cases hreplaced with
    | cons hpiece hreplaced =>
      cases hpiece with
      | blockComment _ _ hinside =>
        have := Lexed.blockComment hinside (ih hreplaced)
        simpa [AqlPiece.text] using this
  | openComment =>
    cases hreplaced with
    | cons hpiece hreplaced =>
      cases hreplaced
      cases hpiece with
      | blockComment _ _ hinside =>
        have := Lexed.openComment hinside
        simpa [AqlPiece.text] using this
  | literal _ hends hrest ih =>
    cases hreplaced with
    | cons hpiece hreplaced =>
      have hhead := head_of_replaced hreplaced
      rw [hrest.text_eq] at hhead
      rw [← hhead] at hends
      cases hpiece with
      | literal _ _ _ hinside =>
        have := Lexed.literal hinside hends (ih hreplaced)
        simpa [AqlPiece.text] using this
  | openLiteral =>
    cases hreplaced with
    | cons hpiece hreplaced =>
      cases hreplaced
      cases hpiece with
      | literal _ _ _ hinside =>
        have := Lexed.openLiteral hinside
        simpa [AqlPiece.text] using this

/-! ## The tokens -/

section Tokens

variable (t : AqlTables)

theorem takeWhile_append_of_stop {p : Char → Bool} {c} (hc : p c = false) (before after : List Char) :
    (before ++ c :: after).takeWhile p = before.takeWhile p := by
  induction before with
  | nil => rw [List.nil_append, List.takeWhile_cons_of_neg (by rw [hc]; exact Bool.false_ne_true), List.takeWhile_nil]
  | cons d before ih => rw [List.cons_append, List.takeWhile_cons, List.takeWhile_cons, ih]

theorem not_isDecimal_space : t.digits.isDecimal ' ' = false := by
  rw [DigitTables.isDecimal, t.decimal_ascii ' ' (by decide)]
  rfl

theorem separates_space : (tokenRule t.digits).Separates ' ' where
  alone rest := by
    have hspace := not_isDecimal_space t
    cases rest with
    | nil => simp [tokenRule, tokenExtra, isWordStart, hspace]
    | cons d rest => simp [tokenRule, tokenExtra, isWordStart, isOperatorPair, hspace]
  stops c before after := by
    have hword : isWordChar ' ' = false := by decide
    simp only [tokenRule, tokenExtra, takeWhile_append_of_stop hword, takeWhile_append_of_stop (not_isDecimal_space t)]
    cases before with
    | nil => simp [isOperatorPair]
    | cons d before => rfl

theorem tokensOf_append_spaces {count} (hcount : 0 < count) (before after : List Char) :
    tokensOf t (before ++ (List.replicate count ' ' ++ after)) = tokensOf t before ++ tokensOf t after := by
  refine Munch.kept_append_seps (separates_space t) ?_ hcount before after
  have hspace : t.unicode.isspace ' ' = true := by
    rw [t.isspace_ascii ' ' (by decide)]
    rfl
  simp [AqlTables.isspaceText, hspace]

theorem blanked_of_replaced {piece piece' : AqlPiece} (h : piece.Replaced piece') :
    (∃ c, piece.blanked = [c] ∧ piece'.blanked = [c]) ∨
      ∃ m n, 0 < m ∧ 0 < n ∧ piece.blanked = List.replicate m ' ' ∧ piece'.blanked = List.replicate n ' ' := by
  cases h with
  | code c => exact .inl ⟨c, rfl, rfl⟩
  | lineComment => exact .inr ⟨_, _, Nat.succ_pos _, Nat.succ_pos _, rfl, rfl⟩
  | blockComment => exact .inr ⟨_, _, Nat.succ_pos _, Nat.succ_pos _, rfl, rfl⟩
  | literal => exact .inr ⟨_, _, Nat.succ_pos _, Nat.succ_pos _, rfl, rfl⟩

theorem tokensOf_replaced {pieces pieces' : List AqlPiece} (h : List.Forall₂ AqlPiece.Replaced pieces pieces')
    (before : List Char) : tokensOf t (before ++ pieces.flatMap AqlPiece.blanked) =
      tokensOf t (before ++ pieces'.flatMap AqlPiece.blanked) := by
  induction h generalizing before with
  | nil => rfl
  | cons hpiece _ ih =>
    rw [List.flatMap_cons, List.flatMap_cons]
    rcases blanked_of_replaced hpiece with ⟨c, hc, hc'⟩ | ⟨m, n, hm, hn, hblank, hblank'⟩
    · rw [hc, hc', ← List.append_assoc, ← List.append_assoc]
      exact ih (before ++ [c])
    · rw [hblank, hblank', tokensOf_append_spaces t hm, tokensOf_append_spaces t hn]
      exact congrArg (tokensOf t before ++ ·) (ih [])

theorem lexTokens_replaced {text pieces} (h : List.Forall₂ AqlPiece.Replaced (lexPieces text) pieces) :
    lexTokens t (pieces.flatMap AqlPiece.text) = lexTokens t text := by
  rw [lexTokens, lexTokens, strippedText, strippedText, ((lexed text).replaced h).lexPieces_eq]
  exact (tokensOf_replaced t h []).symm

theorem delimiter_not_space {piece piece' : AqlPiece} (h : piece.Replaced piece') :
    piece = piece' ∨ (piece.text.all t.unicode.isspace = false ∧ piece'.text.all t.unicode.isspace = false) := by
  have hdash : t.unicode.isspace '-' = false := by rw [t.isspace_ascii '-' (by decide)]; rfl
  have hslash : t.unicode.isspace '/' = false := by rw [t.isspace_ascii '/' (by decide)]; rfl
  have hquote : ∀ quote : AqlQuote, t.unicode.isspace quote.char = false := by
    intro quote
    rw [t.isspace_ascii quote.char (by cases quote <;> decide)]
    cases quote <;> rfl
  cases h with
  | code c => exact .inl rfl
  | lineComment => exact .inr (by simp [AqlPiece.text, hdash])
  | blockComment => exact .inr (by simp [AqlPiece.text, hslash])
  | literal quote => exact .inr (by simp [AqlPiece.text, hquote])

theorem all_isspace_replaced {pieces pieces' : List AqlPiece} (h : List.Forall₂ AqlPiece.Replaced pieces pieces') :
    (pieces.flatMap AqlPiece.text).all t.unicode.isspace = (pieces'.flatMap AqlPiece.text).all t.unicode.isspace := by
  induction h with
  | nil => rfl
  | cons hpiece _ ih =>
    rw [List.flatMap_cons, List.flatMap_cons, List.all_append, List.all_append, ih]
    rcases delimiter_not_space t hpiece with rfl | ⟨hno, hno'⟩
    · rfl
    · rw [hno, hno', Bool.false_and]

end Tokens

/-! ## The clauses -/

def FirstAt (P : Nat → Prop) (i : Nat) : Prop := P i ∧ ∀ j < i, ¬ P j

theorem exists_firstAt {P Q : Nat → Prop} : (∃ i, FirstAt P i ∧ Q i) ↔
    (P 0 ∧ Q 0) ∨ (¬ P 0 ∧ ∃ i, FirstAt (fun i => P (i + 1)) i ∧ Q (i + 1)) := by
  constructor
  · rintro ⟨i, ⟨hi, hfirst⟩, hq⟩
    cases i with
    | zero => exact .inl ⟨hi, hq⟩
    | succ i => exact .inr ⟨hfirst 0 (Nat.succ_pos i), i, ⟨hi, fun j hj => hfirst (j + 1) (Nat.succ_lt_succ hj)⟩, hq⟩
  · rintro (⟨hp, hq⟩ | ⟨hp, i, ⟨hi, hfirst⟩, hq⟩)
    · exact ⟨0, ⟨hp, fun j hj => absurd hj (Nat.not_lt_zero j)⟩, hq⟩
    · refine ⟨i + 1, ⟨hi, fun j hj => ?_⟩, hq⟩
      cases j with
      | zero => exact hp
      | succ j => exact hfirst j (Nat.lt_of_succ_lt_succ hj)

section Clauses

variable (t : AqlTables) (tokens upperTokens : List (List Char))

def LastAt (i : Nat) : Prop := (tokens[i]?).map t.upperText = some (keyword "LAST") ∧ i + 2 < tokens.length

def LimitAt (i : Nat) : Prop :=
  upperTokens[i]? = some (keyword "LIMIT") ∧ ∃ number, upperTokens[i + 1]? = some number ∧ t.digits.isdigitText number

variable {t tokens upperTokens}

theorem lastClause_eq_some_iff {number unit} : lastClause t tokens = some (number, unit) ↔
    ∃ i, FirstAt (LastAt t tokens) i ∧ tokens[i + 1]? = some number ∧ (tokens[i + 2]?).map t.upperText = some unit := by
  fun_induction lastClause t tokens with
  | case1 token number' unit' rest h =>
    rw [exists_firstAt]
    simp [LastAt, h]
  | case2 token number' unit' rest h ih =>
    have hno : ¬ LastAt t (token :: number' :: unit' :: rest) 0 := fun hlast => h (Option.some.inj hlast.1)
    have hshift : (fun i => LastAt t (token :: number' :: unit' :: rest) (i + 1)) =
        LastAt t (number' :: unit' :: rest) := by
      funext i
      simp only [LastAt, List.getElem?_cons_succ, List.length_cons, eq_iff_iff]
      exact and_congr_right (fun _ => by omega)
    refine ih.trans (Iff.trans ?_ exists_firstAt.symm)
    simp only [hno, hshift, false_and, false_or, not_false_eq_true, true_and, List.getElem?_cons_succ]
  | case3 tokens hshort =>
    constructor
    · exact nofun
    · rintro ⟨i, ⟨⟨-, hlength⟩, -⟩, -⟩
      match tokens, hshort with
      | [], _ => exact absurd hlength (by simp)
      | [_], _ => exact absurd hlength (by simp)
      | [_, _], _ => exact absurd hlength (by simp)
      | a :: b :: c :: rest, hshort => exact (hshort a b c rest rfl).elim

theorem limitClause_eq_some_iff {number} : limitClause t upperTokens = some number ↔
    ∃ i, FirstAt (LimitAt t upperTokens) i ∧ upperTokens[i + 1]? = some number := by
  fun_induction limitClause t upperTokens with
  | case1 token next rest h =>
    rw [exists_firstAt]
    simp [LimitAt, h.1, h.2]
  | case2 token next rest h ih =>
    have hno : ¬ LimitAt t (token :: next :: rest) 0 := by
      rintro ⟨hlimit, number, hnumber, hdigit⟩
      cases hnumber
      exact h ⟨Option.some.inj hlimit, hdigit⟩
    have hshift : (fun i => LimitAt t (token :: next :: rest) (i + 1)) = LimitAt t (next :: rest) := by
      funext i
      simp only [LimitAt, List.getElem?_cons_succ]
    refine ih.trans (Iff.trans ?_ exists_firstAt.symm)
    simp only [hno, hshift, false_and, false_or, not_false_eq_true, true_and, List.getElem?_cons_succ]
  | case3 upperTokens hshort =>
    constructor
    · exact nofun
    · rintro ⟨i, -, hnumber⟩
      match upperTokens, hshort with
      | [], _ => cases hnumber
      | [_], _ => cases hnumber
      | a :: b :: rest, hshort => exact (hshort a b rest rfl).elim

theorem exists_index_cons {P : Nat → Prop} : (∃ i, P i) ↔ P 0 ∨ ∃ i, P (i + 1) := by
  constructor
  · rintro ⟨i, hi⟩
    cases i with
    | zero => exact .inl hi
    | succ i => exact .inr ⟨i, hi⟩
  · rintro (h | ⟨i, hi⟩)
    · exact ⟨0, h⟩
    · exact ⟨i + 1, hi⟩

theorem mem_extractDatasets {dataset} : dataset ∈ extractDatasets upperTokens ↔
    ∃ i, upperTokens[i]? = some (keyword "FROM") ∧ upperTokens[i + 1]? = some dataset := by
  fun_induction extractDatasets upperTokens with
  | case1 next rest ih =>
    rw [List.mem_cons, ih]
    refine Iff.trans ?_ exists_index_cons.symm
    simp only [List.getElem?_cons_succ, List.getElem?_cons_zero, true_and, Option.some.injEq, eq_comm]
  | case2 token next rest h ih =>
    refine ih.trans (Iff.trans ?_ exists_index_cons.symm)
    simp only [List.getElem?_cons_succ, List.getElem?_cons_zero, Option.some.injEq, h, false_and, false_or]
  | case3 upperTokens hshort =>
    constructor
    · exact nofun
    · rintro ⟨i, -, hdataset⟩
      match upperTokens, hshort with
      | [], _ => cases hdataset
      | [_], _ => cases hdataset
      | a :: b :: rest, hshort => exact (hshort a b rest rfl).elim

theorem hasNonTrailing_eq_false (hspace : ∀ token ∈ tokens, t.isspaceText token = false) :
    hasNonTrailing t tokens = false ↔ ∀ i, tokens[i]? = some [';'] → i + 1 = tokens.length := by
  induction tokens with
  | nil => exact ⟨(fun _ i hi => by cases hi), fun _ => rfl⟩
  | cons token rest ih =>
    have hrest := ih (fun token htoken => hspace token (List.mem_cons_of_mem _ htoken))
    have hany : rest.any (fun later => !t.isspaceText later) = false ↔ rest = [] := by
      cases rest with
      | nil => exact ⟨fun _ => rfl, fun _ => rfl⟩
      | cons later rest => simp [hspace later (by simp)]
    rw [hasNonTrailing, Bool.or_eq_false_iff, Bool.and_eq_false_iff, hrest, hany, decide_eq_false_iff_not]
    constructor
    · rintro ⟨hfirst, hlater⟩ i hi
      cases i with
      | zero =>
        have hnil := hfirst.resolve_left (fun hne => hne (Option.some.inj hi))
        rw [hnil, List.length_singleton]
      | succ i => rw [List.length_cons, hlater i hi]
    · intro h
      refine ⟨?_, fun i hi => Nat.succ.inj (h (i + 1) hi)⟩
      by_cases htoken : token = [';']
      · have hlength := h 0 (congrArg some htoken)
        exact .inr (List.length_eq_zero_iff.mp (Nat.succ.inj hlength.symm))
      · exact .inl htoken

theorem keywordReasons_eq_nil : keywordReasons upperTokens = [] ↔ ∀ k ∈ bannedKeywords, k ∉ upperTokens := by
  have hfound : keywordReasons upperTokens = [] ↔
      sortOn id ((upperTokens.filter (fun token => bannedKeywords.contains token)).dedup) = [] := by
    unfold keywordReasons
    dsimp only
    split
    · rename_i h
      exact ⟨fun _ => h, fun _ => rfl⟩
    · rename_i h
      exact ⟨nofun, fun hnil => absurd hnil h⟩
  rw [hfound, List.eq_nil_iff_forall_not_mem]
  constructor
  · intro h k hk htoken
    refine h k (mem_sortOn.mpr (List.mem_dedup.mpr (List.mem_filter.mpr ⟨htoken, ?_⟩)))
    exact List.contains_iff_mem.mpr hk
  · intro h k hk
    obtain ⟨htoken, hbanned⟩ := List.mem_filter.mp (List.mem_dedup.mp (mem_sortOn.mp hk))
    exact h k (List.contains_iff_mem.mp hbanned) htoken

theorem datasetReasons_eq_nil {datasets} :
    datasetReasons datasets = [] ↔ datasets ≠ [] ∧ ∀ dataset ∈ datasets, dataset ∈ allowedDatasets := by
  unfold datasetReasons
  split
  · rename_i hnil
    exact ⟨nofun, fun h => absurd hnil h.1⟩
  · rename_i hne
    have hbad : datasets.filter (fun dataset => !allowedDatasets.contains dataset) = [] ↔
        ∀ dataset ∈ datasets, dataset ∈ allowedDatasets := by simp [List.filter_eq_nil_iff]
    dsimp only
    split
    · rename_i h
      exact ⟨fun _ => ⟨hne, hbad.mp h⟩, fun _ => rfl⟩
    · rename_i h
      exact ⟨nofun, fun hall => absurd (hbad.mpr hall.2) h⟩

theorem exists_timeWindowToken {window} (h : timeWindow t tokens = .ok (some window)) :
    ∃ k ∈ timeWindowTokens, k ∈ tokens.map t.upperText := by
  unfold timeWindow at h
  split at h
  · rename_i number unit hclause
    obtain ⟨i, ⟨⟨hlast, -⟩, -⟩, -⟩ := lastClause_eq_some_iff.mp hclause
    refine ⟨keyword "LAST", by decide, ?_⟩
    rw [← List.getElem?_map] at hlast
    exact List.mem_of_getElem? hlast
  · split at h
    · rename_i hstart
      exact ⟨keyword "START", by decide, hstart.1⟩
    · split at h
      · rename_i hany
        obtain ⟨token, htoken, hwindow⟩ := List.any_eq_true.mp hany
        exact ⟨token, List.contains_iff_mem.mp hwindow, htoken⟩
      · cases h

theorem timeWindow_of_clause {number unit perUnit} (hclause : lastClause t tokens = some (number, unit))
    (hdigit : t.digits.isdigitText number = true) (hunit : unitHours unit = some perUnit) : timeWindow t tokens = (do
      let n ← readNumber t number
      let hours ← spanHours n perUnit
      return some (some hours)) := by
  simp only [timeWindow, hclause, hdigit, hunit]

end Clauses

/-! ## The numbers -/

section Numbers

variable {t : AqlTables} {tokens upperTokens : List (List Char)}

def ReadableNumber (t : AqlTables) (number : List Char) : Prop :=
  number.all t.digits.isDecimal = true ∧ number.length ≤ maxStrDigits

theorem readNumber_isOk_iff {number} (hdigit : t.digits.isdigitText number = true) :
    (∃ n, readNumber t number = .ok n) ↔ ReadableNumber t number := by
  have hne : number ≠ [] := by
    rintro rfl
    cases hdigit
  constructor
  · rintro ⟨n, hn⟩
    obtain ⟨-, hall, hlength, -⟩ := DigitTables.readInt_eq_ok.mp (mapError_eq_ok.mp hn)
    exact ⟨hall, hlength⟩
  · rintro ⟨hall, hlength⟩
    exact ⟨_, mapError_eq_ok.mpr (DigitTables.readInt_eq_ok.mpr ⟨hne, hall, hlength, rfl⟩)⟩

theorem readNumber_value {number n} (h : readNumber t number = .ok n) : n = t.digits.value number := by
  obtain ⟨-, -, -, hvalue⟩ := DigitTables.readInt_eq_ok.mp (mapError_eq_ok.mp h)
  exact hvalue.symm

theorem spanHours_isOk_iff {n perUnit} : (∃ hours, spanHours n perUnit = .ok hours) ↔ Double.round n < doubleLimit := by
  unfold spanHours
  split
  · rename_i hlarge
    exact ⟨(fun ⟨_, h⟩ => by cases h), fun hsmall => absurd hlarge (not_le.mpr hsmall)⟩
  · rename_i hsmall
    refine ⟨fun _ => not_le.mp hsmall, fun _ => ?_⟩
    split
    · exact ⟨_, rfl⟩
    · exact ⟨_, rfl⟩

/-- The first `LAST` with a number and a unit has a number that converts. -/
def LastConverts (t : AqlTables) (tokens : List (List Char)) : Prop :=
  ∀ i number unit, FirstAt (LastAt t tokens) i → tokens[i + 1]? = some number →
    (tokens[i + 2]?).map t.upperText = some unit → t.digits.isdigitText number = true → (unitHours unit).isSome →
    ReadableNumber t number ∧ Double.round (t.digits.value number) < doubleLimit

/-- The first `LIMIT` with a number has one that converts. -/
def LimitConverts (t : AqlTables) (upperTokens : List (List Char)) : Prop :=
  ∀ i number, FirstAt (LimitAt t upperTokens) i → upperTokens[i + 1]? = some number → ReadableNumber t number

theorem timeWindow_isOk_iff : (∃ window, timeWindow t tokens = .ok window) ↔ LastConverts t tokens := by
  constructor
  · rintro ⟨window, hwindow⟩ i number unit hfirst hnumber hunit hdigit hsome
    obtain ⟨perUnit, hper⟩ := Option.isSome_iff_exists.mp hsome
    rw [timeWindow_of_clause (lastClause_eq_some_iff.mpr ⟨i, hfirst, hnumber, hunit⟩) hdigit hper] at hwindow
    obtain ⟨n, hn, hwindow⟩ := bind_ok hwindow
    obtain ⟨hours, hhours, -⟩ := bind_ok hwindow
    rw [readNumber_value hn] at hhours
    exact ⟨(readNumber_isOk_iff hdigit).mp ⟨n, hn⟩, spanHours_isOk_iff.mp ⟨hours, hhours⟩⟩
  · intro h
    cases hclause : lastClause t tokens with
    | none =>
      unfold timeWindow
      simp only [hclause]
      split
      · exact ⟨_, rfl⟩
      · split
        · exact ⟨_, rfl⟩
        · exact ⟨_, rfl⟩
    | some clause =>
      obtain ⟨number, unit⟩ := clause
      obtain ⟨i, hfirst, hnumber, hunit⟩ := lastClause_eq_some_iff.mp hclause
      by_cases hdigit : t.digits.isdigitText number = true
      · cases hper : unitHours unit with
        | none =>
          refine ⟨some none, ?_⟩
          simp only [timeWindow, hclause, hdigit, hper]
        | some perUnit =>
          obtain ⟨hreadable, hsmall⟩ := h i number unit hfirst hnumber hunit hdigit (by rw [hper]; rfl)
          obtain ⟨n, hn⟩ := (readNumber_isOk_iff hdigit).mpr hreadable
          rw [← readNumber_value hn] at hsmall
          have hspan : ∃ hours, spanHours n perUnit = .ok hours := spanHours_isOk_iff.mpr hsmall
          obtain ⟨hours, hhours⟩ := hspan
          refine ⟨some (some hours), ?_⟩
          rw [timeWindow_of_clause hclause hdigit hper]
          exact bind_eq_ok.mpr ⟨n, hn, bind_eq_ok.mpr ⟨hours, hhours, rfl⟩⟩
      · refine ⟨some none, ?_⟩
        rw [Bool.not_eq_true] at hdigit
        simp only [timeWindow, hclause, hdigit]

theorem explicitLimit_isOk_iff : (∃ limit, explicitLimit t upperTokens = .ok limit) ↔ LimitConverts t upperTokens := by
  have hread {i : Nat} {number : List Char} (hfirst : FirstAt (LimitAt t upperTokens) i)
      (hnumber : upperTokens[i + 1]? = some number) :
      (∃ n, readNumber t number = .ok n) ↔ ReadableNumber t number := by
    obtain ⟨-, number', hnumber', hdigit⟩ := hfirst.1
    obtain rfl := Option.some.inj (hnumber'.symm.trans hnumber)
    exact readNumber_isOk_iff hdigit
  constructor
  · rintro ⟨limit, hlimit⟩ i number hfirst hnumber
    simp only [explicitLimit, limitClause_eq_some_iff.mpr ⟨i, hfirst, hnumber⟩] at hlimit
    obtain ⟨n, hn, -⟩ := bind_ok hlimit
    exact (hread hfirst hnumber).mp ⟨n, hn⟩
  · intro h
    cases hclause : limitClause t upperTokens with
    | none => exact ⟨none, by simp only [explicitLimit, hclause]⟩
    | some number =>
      obtain ⟨i, hfirst, hnumber⟩ := limitClause_eq_some_iff.mp hclause
      obtain ⟨n, hn⟩ := (hread hfirst hnumber).mpr (h i number hfirst hnumber)
      refine ⟨some n, ?_⟩
      simp only [explicitLimit, hclause]
      exact bind_eq_ok.mpr ⟨n, hn, rfl⟩

def unitMinutes (unit : List Char) : Option Nat :=
  if unit ∈ ["MINUTES", "MINUTE", "MINS", "MIN"].map keyword then some 1
  else if unit ∈ ["HOURS", "HOUR"].map keyword then some 60
  else if unit ∈ ["DAYS", "DAY"].map keyword then some 1440
  else none

theorem unitHours_ge {unit minutes} (h : unitMinutes unit = some minutes) :
    ∃ perUnit, unitHours unit = some perUnit ∧ (minutes / 60 : ℚ) * (1 - 1 / 2 ^ 53) ≤ perUnit := by
  unfold unitMinutes at h
  unfold unitHours
  split_ifs at h ⊢
  · cases h
    refine ⟨_, rfl, ?_⟩
    have hround := (abs_le.mp (Double.abs_round_sub (1 / 60))).1
    rw [abs_of_pos (by norm_num)] at hround
    push_cast
    linarith
  · cases h
    exact ⟨1, rfl, by norm_num⟩
  · cases h
    exact ⟨24, rfl, by norm_num⟩

theorem spanHours_ge {n minutes : Nat} {perUnit h} (hunit : (minutes / 60 : ℚ) * (1 - 1 / 2 ^ 53) ≤ perUnit)
    (hspan : spanHours n perUnit = .ok (.hours h)) : (n * minutes / 60 : ℚ) * (1 - 1 / 2 ^ 51) ≤ h := by
  have hh : Double.round (Double.round n * perUnit) = h := by
    unfold spanHours at hspan
    split at hspan
    · cases hspan
    · split at hspan
      · cases hspan
      · exact AqlHours.hours.inj (Except.ok.inj hspan)
  rw [← hh]
  have hn : (0 : ℚ) ≤ n := Nat.cast_nonneg n
  have hm : (0 : ℚ) ≤ (minutes : ℚ) / 60 := by positivity
  have hcount : (n : ℚ) * (1 - 1 / 2 ^ 53) ≤ Double.round n := by
    have hround := (abs_le.mp (Double.abs_round_sub (n : ℚ))).1
    rw [abs_of_nonneg hn] at hround
    linarith
  have hproduct : (n : ℚ) * (1 - 1 / 2 ^ 53) * (minutes / 60 * (1 - 1 / 2 ^ 53)) ≤ Double.round n * perUnit := by
    refine mul_le_mul hcount hunit (by positivity) (le_trans (by positivity) hcount)
  have hnonneg : 0 ≤ Double.round n * perUnit := le_trans (by positivity) hproduct
  have hround := (abs_le.mp (Double.abs_round_sub (Double.round n * perUnit))).1
  rw [abs_of_nonneg hnonneg] at hround
  have hscale : (Double.round n * perUnit) * (1 - 1 / 2 ^ 53) ≤ Double.round (Double.round n * perUnit) := by linarith
  refine le_trans ?_ hscale
  refine le_trans ?_ (mul_le_mul_of_nonneg_right hproduct (by norm_num))
  have hexact : (0 : ℚ) ≤ n * minutes / 60 := by positivity
  calc (n * minutes / 60 : ℚ) * (1 - 1 / 2 ^ 51)
      ≤ (n * minutes / 60 : ℚ) * (1 - 1 / 2 ^ 53) ^ 3 := mul_le_mul_of_nonneg_left (by norm_num) hexact
    _ = (n : ℚ) * (1 - 1 / 2 ^ 53) * (minutes / 60 * (1 - 1 / 2 ^ 53)) * (1 - 1 / 2 ^ 53) := by ring

theorem span_le_of_hours {n minutes : Nat} {perUnit h} {maxHours : Int}
    (hunit : (minutes / 60 : ℚ) * (1 - 1 / 2 ^ 53) ≤ perUnit) (hspan : spanHours n perUnit = .ok (.hours h))
    (hle : h ≤ maxHours) (hmax : maxHours < 2 ^ 40) : (n * minutes : Int) ≤ 60 * maxHours := by
  by_contra hover
  have hlow := (spanHours_ge hunit hspan).trans hle
  have hstep : (60 * maxHours + 1 : ℚ) ≤ n * minutes := by exact_mod_cast Int.add_one_le_iff.mpr (not_le.mp hover)
  have hmax' : (maxHours : ℚ) < 2 ^ 40 := by exact_mod_cast hmax
  have hscaled := mul_le_mul_of_nonneg_right hstep (show (0 : ℚ) ≤ 1 - 1 / 2 ^ 51 by norm_num)
  norm_num at hlow hscaled hmax'
  linarith

end Numbers

/-! ## The verdict -/

section Verdict

variable {t : AqlTables} {limits : AqlLimits} {aql : List Char}

def ValidatedAql.judged (v : ValidatedAql) : List (List Char) × Bool := (v.datasets, v.hasTimeWindow)

theorem validateAql_of_window_error (hne : t.unicode.strip aql ≠ []) {e}
    (h : timeWindow t (lexTokens t aql) = .error e) : validateAql t limits aql = .error (.escaped e) := by
  rw [validateAql, if_neg hne]
  simp only [h, Except.mapError, bind, Except.bind]

theorem validateAql_of_limit_error (hne : t.unicode.strip aql ≠ []) {window e}
    (hwindow : timeWindow t (lexTokens t aql) = .ok window)
    (h : explicitLimit t ((lexTokens t aql).map t.upperText) = .error e) :
    validateAql t limits aql = .error (.escaped e) := by
  rw [validateAql, if_neg hne]
  simp only [hwindow, h, Except.mapError, bind, Except.bind]

theorem validateAql_of_read (hne : t.unicode.strip aql ≠ []) {window limit}
    (hwindow : timeWindow t (lexTokens t aql) = .ok window)
    (hlimit : explicitLimit t ((lexTokens t aql).map t.upperText) = .ok limit) :
    validateAql t limits aql =
      if aqlReasons t limits (lexTokens t aql) window limit = [] then
        .ok ⟨t.unicode.strip aql, extractDatasets ((lexTokens t aql).map t.upperText), window.isSome⟩
      else .error (.rejected (aqlReasons t limits (lexTokens t aql) window limit)) := by
  rw [validateAql, if_neg hne]
  simp only [hwindow, hlimit, Except.mapError, bind, Except.bind]
  rfl

theorem validateAql_congr {aql'} (hblank : t.unicode.strip aql = [] ↔ t.unicode.strip aql' = [])
    (htokens : lexTokens t aql = lexTokens t aql') :
    (validateAql t limits aql).map ValidatedAql.judged = (validateAql t limits aql').map ValidatedAql.judged := by
  by_cases hne : t.unicode.strip aql = []
  · rw [validateAql, validateAql, if_pos hne, if_pos (hblank.mp hne)]
  · have hne' := mt hblank.mpr hne
    cases hwindow : timeWindow t (lexTokens t aql') with
    | error e =>
      rw [validateAql_of_window_error hne' hwindow, validateAql_of_window_error hne (htokens ▸ hwindow)]
    | ok window =>
      cases hlimit : explicitLimit t ((lexTokens t aql').map t.upperText) with
      | error e =>
        rw [validateAql_of_limit_error hne' hwindow hlimit,
          validateAql_of_limit_error hne (htokens ▸ hwindow) (htokens ▸ hlimit)]
      | ok limit =>
        rw [validateAql_of_read hne' hwindow hlimit,
          validateAql_of_read hne (htokens ▸ hwindow) (htokens ▸ hlimit), htokens]
        split
        · rfl
        · rfl

def Answers (x : Except AqlFailure ValidatedAql) : Prop :=
  (∃ v, x = .ok v) ∨ ∃ reasons, reasons ≠ [] ∧ x = .error (.rejected reasons)

theorem not_answers_escaped (e : Exc) : ¬ Answers (.error (.escaped e)) := by
  rintro (⟨v, hv⟩ | ⟨reasons, -, hreasons⟩)
  · cases hv
  · cases hreasons

theorem answers_iff_reads (hne : t.unicode.strip aql ≠ []) : Answers (validateAql t limits aql) ↔
    (∃ window, timeWindow t (lexTokens t aql) = .ok window) ∧
      ∃ limit, explicitLimit t ((lexTokens t aql).map t.upperText) = .ok limit := by
  cases hwindow : timeWindow t (lexTokens t aql) with
  | error e =>
    rw [validateAql_of_window_error hne hwindow]
    exact ⟨fun hanswers => absurd hanswers (not_answers_escaped e), (fun ⟨⟨_, hok⟩, _⟩ => by cases hok)⟩
  | ok window =>
    cases hlimit : explicitLimit t ((lexTokens t aql).map t.upperText) with
    | error e =>
      rw [validateAql_of_limit_error hne hwindow hlimit]
      exact ⟨fun hanswers => absurd hanswers (not_answers_escaped e), (fun ⟨_, _, hok⟩ => by cases hok)⟩
    | ok limit =>
      refine ⟨fun _ => ⟨⟨window, rfl⟩, limit, rfl⟩, fun _ => ?_⟩
      rw [validateAql_of_read hne hwindow hlimit]
      split
      · exact .inl ⟨_, rfl⟩
      · rename_i hreasons
        exact .inr ⟨_, hreasons, rfl⟩

theorem validateAql_ok {v} (h : validateAql t limits aql = .ok v) : ∃ window limit,
    timeWindow t (lexTokens t aql) = .ok window ∧
      explicitLimit t ((lexTokens t aql).map t.upperText) = .ok limit ∧
      aqlReasons t limits (lexTokens t aql) window limit = [] := by
  have hne : t.unicode.strip aql ≠ [] := by
    intro hblank
    rw [validateAql, if_pos hblank] at h
    cases h
  obtain ⟨⟨window, hwindow⟩, limit, hlimit⟩ := (answers_iff_reads hne).mp (.inl ⟨v, h⟩)
  refine ⟨window, limit, hwindow, hlimit, ?_⟩
  rw [validateAql_of_read hne hwindow hlimit] at h
  by_contra hreasons
  rw [if_neg hreasons] at h
  cases h

end Verdict

end QRadarDashboard.Services
