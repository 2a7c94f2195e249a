import Mathlib.Data.List.Forall2
import Chatroom.History.ChatRecord

/-!
# MySQL reads a statement

The lexer as far as single quotes go: a statement is code, character by character, with string literals between. In a
literal two quotes stand for one and a backslash escapes what follows (`readSQLString`); another quote ends it.
`lex_print_iff` says when values that were put between quotes as they are come out as they were.
-/

namespace Chatroom.Database

open History

inductive Piece where
  | code (c : Char)
  | literal (value : List Char)
  deriving DecidableEq

/-- The rest of a statement; in a literal, `some` is what was read of its value. -/
def lexFrom : Option (List Char) → List Char → Option (List Piece)
  | none, [] => some []
  | none, c :: l => if c = '\'' then lexFrom (some []) l else (lexFrom none l).map (.code c :: ·)
  | some _, [] => none
  | some v, [c] => if c = '\'' then some [.literal v] else none
  | some v, c :: d :: l =>
    if c = '\'' then
      if d = '\'' then lexFrom (some (v ++ ['\''])) l else (lexFrom none (d :: l)).map (.literal v :: ·)
    else if c = '\\' then lexFrom (some (v ++ unescapeChar d)) l
    else lexFrom (some (v ++ [c])) (d :: l)

def lex (sql : List Char) : Option (List Piece) := lexFrom none sql

def Piece.text : Piece → List Char
  | .code c => [c]
  | .literal value => '\'' :: (value ++ ['\''])

/-- A statement with its values between quotes as they are. -/
def print (ps : List Piece) : List Char := ps.flatMap Piece.text

def Piece.IsLiteral : Piece → Prop
  | .code _ => False
  | .literal _ => True

/-- Code has no quotes, and no two literals touch. -/
def Separated : List Piece → Prop
  | [] => True
  | .code c :: ps => c ≠ '\'' ∧ Separated ps
  | .literal _ :: ps => (∀ p ∈ ps.head?, ¬ p.IsLiteral) ∧ Separated ps

/-- The second is what the first is read as. -/
inductive Piece.Reads : Piece → Piece → Prop
  | code (c : Char) : Reads (.code c) (.code c)
  | literal {raw v : List Char} (hread : readSQLString raw = some v) : Reads (.literal raw) (.literal v)

/-- Without quotes, and with no backslashes but those of `\%` and `\_`, which stand for themselves. -/
def Verbatim : List Char → Prop
  | [] => True
  | c :: l => c ≠ '\'' ∧ (c = '\\' → l.head? = some '%' ∨ l.head? = some '_') ∧ Verbatim l

example : lex "a='it''s';".toList = some [.code 'a', .code '=', .literal "it's".toList, .code ';'] := by decide

section Lex

variable {v w raw rest sql : List Char} {ps : List Piece}

theorem lexFrom_code {c : Char} (hc : c ≠ '\'') (l : List Char) :
    lexFrom none (c :: l) = (lexFrom none l).map (.code c :: ·) :=
  if_neg hc

theorem lexFrom_codes {l : List Char} (hl : '\'' ∉ l) (rest : List Char) :
    lexFrom none (l ++ rest) = (lexFrom none rest).map (l.map Piece.code ++ ·) := by
  induction l with
  | nil => simp
  | cons c l ih =>
    rw [List.mem_cons, not_or] at hl
    rw [List.cons_append, lexFrom_code (Ne.symm hl.1), ih hl.2, Option.map_map]
    rfl

/-- A quote opens a literal. -/
theorem lexFrom_quote (l : List Char) : lexFrom none ('\'' :: l) = lexFrom (some []) l :=
  if_pos rfl

theorem lexFrom_plain {c : Char} (h : Plain c) (w l : List Char) :
    lexFrom (some w) (c :: l) = lexFrom (some (w ++ [c])) l := by
  cases l with
  | nil => exact if_neg h.1
  | cons d l => exact (if_neg h.1).trans (if_neg h.2)

theorem lexFrom_escape (w : List Char) (d : Char) (l : List Char) :
    lexFrom (some w) ('\\' :: d :: l) = lexFrom (some (w ++ unescapeChar d)) l :=
  (if_neg (by decide)).trans (if_pos rfl)

theorem lexFrom_quotes (w l : List Char) :
    lexFrom (some w) ('\'' :: '\'' :: l) = lexFrom (some (w ++ ['\''])) l :=
  (if_pos rfl).trans (if_pos rfl)

theorem lexFrom_end (w : List Char) (hrest : rest.head? ≠ some '\'') :
    lexFrom (some w) ('\'' :: rest) = (lexFrom none rest).map (.literal w :: ·) := by
  cases rest with
  | nil => rfl
  | cons d rest =>
    have hd : d ≠ '\'' := fun h => hrest (congrArg some h)
    exact (if_pos rfl).trans (if_neg hd)

/-- What the text between the quotes of a literal denotes. -/
inductive Denotes : List Char → List Char → Prop
  | nil : Denotes [] []
  | quotes {raw v : List Char} (h : Denotes raw v) : Denotes ('\'' :: '\'' :: raw) ('\'' :: v)
  | escape (d : Char) {raw v : List Char} (h : Denotes raw v) : Denotes ('\\' :: d :: raw) (unescapeChar d ++ v)
  | plain {c : Char} {raw v : List Char} (hc : Plain c) (h : Denotes raw v) : Denotes (c :: raw) (c :: v)

theorem Denotes.read (h : Denotes raw v) : readSQLString raw = some v := by
  induction h with
  | nil => rfl
  | quotes h ih => simp [readSQLString, ih]
  | escape d h ih => simp [readSQLString, ih]
  | plain hc h ih =>
    rw [readSQLString_cons hc, ih]
    rfl

theorem denotes_of_read (hread : readSQLString raw = some v) : Denotes raw v := by
  induction raw using readSQLString.induct generalizing v with
  | case1 =>
    cases hread
    exact .nil
  | case2 => cases hread
  | case3 => cases hread
  | case4 l ih =>
    obtain ⟨v', hv', rfl⟩ := Option.map_eq_some_iff.1 hread
    exact .quotes (ih hv')
  | case5 c l hc => simp [readSQLString, hc] at hread
  | case6 c l ih =>
    obtain ⟨v', hv', rfl⟩ := Option.map_eq_some_iff.1 hread
    exact .escape c (ih hv')
  | case7 c l hquote hback hquotes hescape ih =>
    have hc : Plain c := by
      refine ⟨fun h => ?_, fun h => ?_⟩ <;> rcases l with _ | ⟨d, l⟩
      · exact hquote h rfl
      · exact hquotes d l h rfl
      · exact hback h rfl
      · exact hescape d l h rfl
    rw [readSQLString_cons hc] at hread
    obtain ⟨v', hv', rfl⟩ := Option.map_eq_some_iff.1 hread
    exact .plain hc (ih hv')

/-- A literal ends where its text does, unless a quote follows. -/
theorem lexFrom_literal (h : Denotes raw v) (hrest : rest.head? ≠ some '\'') :
    lexFrom (some w) (raw ++ '\'' :: rest) = (lexFrom none rest).map (.literal (w ++ v) :: ·) := by
  induction h generalizing w with
  | nil => rw [List.append_nil, List.nil_append, lexFrom_end _ hrest]
  | quotes h ih => rw [List.cons_append, List.cons_append, lexFrom_quotes, ih, List.append_assoc, List.singleton_append]
  | escape d h ih => rw [List.cons_append, List.cons_append, lexFrom_escape, ih, List.append_assoc]
  | plain hc h ih => rw [List.cons_append, lexFrom_plain hc, ih, List.append_assoc, List.singleton_append]

/-- Where a literal's value was read from. -/
theorem literal_of_lexFrom (hlex : lexFrom (some w) sql = some ps) :
    ∃ raw rest v ps', sql = raw ++ '\'' :: rest ∧ Denotes raw v ∧ lexFrom none rest = some ps' ∧
      ps = .literal (w ++ v) :: ps' := by
  induction hn : sql.length using Nat.strong_induction_on generalizing sql w with
  | _ n ih =>
    rcases sql with _ | ⟨c, l⟩
    · cases hlex
    by_cases hquote : c = '\''
    · subst hquote
      by_cases hl : l.head? = some '\''
      · obtain ⟨l, rfl⟩ : ∃ l', l = '\'' :: l' := ⟨l.tail, (List.cons_head?_tail hl).symm⟩
        rw [lexFrom_quotes] at hlex
        obtain ⟨raw, rest, v, ps', rfl, h, hrest, rfl⟩ := ih _ (by simp at hn; omega) hlex rfl
        exact ⟨'\'' :: '\'' :: raw, rest, '\'' :: v, ps', rfl, h.quotes, hrest, by simp⟩
      · rw [lexFrom_end _ hl] at hlex
        obtain ⟨ps', hrest, rfl⟩ := Option.map_eq_some_iff.1 hlex
        exact ⟨[], l, [], ps', rfl, .nil, hrest, by simp⟩
    by_cases hback : c = '\\'
    · subst hback
      rcases l with _ | ⟨d, l⟩
      · simp [lexFrom] at hlex
      · rw [lexFrom_escape] at hlex
        obtain ⟨raw, rest, v, ps', rfl, h, hrest, rfl⟩ := ih _ (by simp at hn; omega) hlex rfl
        exact ⟨'\\' :: d :: raw, rest, unescapeChar d ++ v, ps', rfl, h.escape d, hrest, by simp⟩
    · rw [lexFrom_plain ⟨hquote, hback⟩] at hlex
      obtain ⟨raw, rest, v, ps', rfl, h, hrest, rfl⟩ := ih _ (by simp at hn; omega) hlex rfl
      exact ⟨c :: raw, rest, c :: v, ps', rfl, h.plain ⟨hquote, hback⟩, hrest, by simp⟩

/-! ## What is read is not longer than its text -/

/-- Only `\%` and `\_` stand for themselves. -/
theorem unescapeChar_cases (d : Char) :
    (d = '%' ∨ d = '_') ∧ unescapeChar d = ['\\', d] ∨ ¬ (d = '%' ∨ d = '_') ∧ (unescapeChar d).length = 1 := by
  by_cases hd : d = '%' ∨ d = '_'
  · rcases hd with rfl | rfl
    · exact .inl (by decide)
    · exact .inl (by decide)
  · refine .inr ⟨hd, ?_⟩
    rw [unescapeChar, if_neg hd]
    repeat' split
    all_goals rfl

theorem Denotes.length_le (h : Denotes raw v) : v.length ≤ raw.length := by
  induction h with
  | nil => exact le_rfl
  | quotes h ih => simp; omega
  | escape d h ih =>
    rcases unescapeChar_cases d with ⟨-, hd⟩ | ⟨-, hd⟩ <;>
      · simp [hd]
        omega
  | plain hc h ih => simpa using ih

/-- A value as long as its text is the text. -/
theorem Denotes.eq_of_length (h : Denotes raw v) (hlength : raw.length ≤ v.length) : v = raw := by
  induction h with
  | nil => rfl
  | quotes h ih =>
    have := h.length_le
    simp at hlength
    omega
  | escape d h ih =>
    have := h.length_le
    rcases unescapeChar_cases d with ⟨-, hd⟩ | ⟨-, hd⟩
    · rw [hd, ih (by simpa [hd] using hlength)]
      rfl
    · simp [hd] at hlength
      omega
  | plain hc h ih => rw [ih (by simpa using hlength)]

/-! ## Printing -/

theorem print_cons (p : Piece) (ps : List Piece) : print (p :: ps) = p.text ++ print ps := rfl

theorem head?_print (hsep : Separated ps) (hhead : ∀ p ∈ ps.head?, ¬ p.IsLiteral) : (print ps).head? ≠ some '\'' := by
  rcases ps with _ | ⟨c | v, ps⟩
  · nofun
  · intro h
    exact hsep.1 (Option.some.inj h)
  · exact absurd trivial (hhead _ rfl)

/-- **Literals are read one by one.** -/
theorem lex_print {raws : List Piece} (hsep : Separated raws) (hreads : List.Forall₂ Piece.Reads raws ps) :
    lex (print raws) = some ps := by
  induction hreads with
  | nil => rfl
  | @cons p p' raws ps hp hreads ih =>
    rw [lex, print_cons]
    cases hp with
    | code c =>
      rw [Piece.text, List.singleton_append, lexFrom_code hsep.1]
      exact congrArg _ (ih hsep.2)
    | @literal raw v hread =>
      rw [Piece.text, List.cons_append, List.append_assoc, lexFrom_quote]
      rw [List.singleton_append, lexFrom_literal (denotes_of_read hread) (head?_print hsep.2 hsep.1)]
      exact congrArg _ (ih hsep.2)

theorem length_print_le (hlex : lexFrom none sql = some ps) : (print ps).length ≤ sql.length := by
  induction hn : sql.length using Nat.strong_induction_on generalizing sql ps with
  | _ n ih =>
    rcases sql with _ | ⟨c, l⟩
    · cases hlex
      simp [print]
    by_cases hquote : c = '\''
    · rw [hquote, lexFrom_quote] at hlex
      obtain ⟨raw, rest, v, ps', rfl, h, hrest, rfl⟩ := literal_of_lexFrom hlex
      have := ih rest.length (by simp at hn; omega) hrest rfl
      have := h.length_le
      simp [print_cons, Piece.text] at hn ⊢
      omega
    · rw [lexFrom_code hquote] at hlex
      obtain ⟨ps', hl, rfl⟩ := Option.map_eq_some_iff.1 hlex
      have := ih l.length (by simp at hn; omega) hl rfl
      simp [print_cons, Piece.text] at hn ⊢
      omega

/-- **Values between quotes as they are come out as they were if each reads as itself.** -/
theorem lex_print_iff (hsep : Separated ps) :
    lex (print ps) = some ps ↔ ∀ v, .literal v ∈ ps → readSQLString v = some v := by
  constructor
  · intro hlex
    induction ps with
    | nil => nofun
    | cons p ps ih =>
      rw [lex, print_cons] at hlex
      cases p with
      | code c =>
        rw [Piece.text, List.singleton_append, lexFrom_code hsep.1, Option.map_eq_some_iff] at hlex
        obtain ⟨ps', hlex, heq⟩ := hlex
        cases heq
        intro v hv
        exact ih hsep.2 hlex v (by simpa using hv)
      | literal v =>
        rw [Piece.text, List.cons_append, List.append_assoc, lexFrom_quote] at hlex
        obtain ⟨raw, rest, v', ps', htext, h, hrest, heq⟩ := literal_of_lexFrom hlex
        obtain ⟨rfl, rfl⟩ : v = v' ∧ ps = ps' := by simpa using heq
        have hle := h.length_le
        -- a value read from more than itself would leave too little for the rest
        have hraw : raw.length = v.length := by
          have := congrArg List.length htext
          have := length_print_le hrest
          simp at *
          omega
        have hread := h.read
        rw [← h.eq_of_length (le_of_eq hraw)] at htext hread
        have htail : print ps = rest := by simpa using htext
        subst htail
        intro u hu
        rcases List.mem_cons.1 hu with heq | hu
        · cases heq
          exact hread
        · exact ih hsep.2 hrest u hu
  · intro hread
    refine lex_print hsep (List.forall₂_same.2 fun p hp => ?_)
    cases p with
    | code c => exact .code c
    | literal v => exact .literal (hread v hp)

/-! ## Values that read as themselves -/

theorem Denotes.verbatim (h : Denotes raw v) (hlength : raw.length ≤ v.length) : Verbatim raw := by
  induction h with
  | nil => trivial
  | quotes h ih =>
    have := h.length_le
    simp at hlength
    omega
  | @escape d raw v h ih =>
    have := h.length_le
    rcases unescapeChar_cases d with ⟨hmark, hd⟩ | ⟨-, hd⟩
    · have hraw := ih (by simpa [hd] using hlength)
      rcases hmark with rfl | rfl
      · exact ⟨by decide, fun _ => .inl rfl, by decide, fun h => absurd h (by decide), hraw⟩
      · exact ⟨by decide, fun _ => .inr rfl, by decide, fun h => absurd h (by decide), hraw⟩
    · simp [hd] at hlength
      omega
  | plain hc h ih => exact ⟨hc.1, fun hback => absurd hback hc.2, ih (by simpa using hlength)⟩

theorem readSQLString_self_iff (v : List Char) : readSQLString v = some v ↔ Verbatim v := by
  constructor
  · intro hread
    exact (denotes_of_read hread).verbatim le_rfl
  · intro h
    induction v with
    | nil => rfl
    | cons c l ih =>
      obtain ⟨hquote, hback, hl⟩ := h
      by_cases hc : c = '\\'
      · subst hc
        obtain ⟨d, l, rfl, hd⟩ : ∃ d l', l = d :: l' ∧ (d = '%' ∨ d = '_') := by
          rcases l with _ | ⟨d, l⟩
          · simp at hback
          · exact ⟨d, l, rfl, by simpa using hback rfl⟩
        have hplain : Plain d := by rcases hd with rfl | rfl <;> decide
        have hread := ih hl
        rw [readSQLString_cons hplain] at hread
        have hmark : unescapeChar d = ['\\', d] := by rcases hd with rfl | rfl <;> decide
        rw [readSQLString, hmark]
        obtain ⟨l', hl', heq⟩ := Option.map_eq_some_iff.1 hread
        rw [hl', ← heq]
        rfl
      · rw [readSQLString_cons ⟨hquote, hc⟩, ih hl]
        rfl

end Lex

end Chatroom.Database
