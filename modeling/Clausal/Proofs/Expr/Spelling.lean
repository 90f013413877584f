import Clausal.Expr.Render
import Clausal.Proofs.Binary64.ReadBack
import Clausal.Proofs.Expr.WellFormed
import Clausal.Proofs.Token.Spelling

/-!
# Tokens of expressions

The tokens that the text of an expression spells. A negative number is a minus sign and a number, and an operand
is in parentheses where its text is. Every well-formed expression without infinite numbers spells its tokens.
-/

namespace Clausal

open Token

def Literal.kinds : Literal → List Kind
  | integer i =>
    if i.toInt < 0 then [.symbol .minus, .integer (UInt64.ofNat i.toInt.natAbs)]
    else [.integer (UInt64.ofNat i.toInt.natAbs)]
  | float x => if x.negative then [.symbol .minus, .float x.neg] else [.float x]
  | string s => [.string s]
  | blob bytes => [.blob bytes]
  | boolean true => [.keyword .true]
  | boolean false => [.keyword .false]
  | null => [.keyword .null]

def Param.kind : Param → Kind
  | positional n => .positional n
  | named name => .named name

/-- The tokens of names, each with a point before it. -/
def Path.pointed (names : List String) : List Kind := names.flatMap fun name => [.symbol .dot, .identifier name]

def Path.kindsOfParts : List String → List Kind
  | [] => []
  | name :: rest => .identifier name :: pointed rest

def Path.kinds (p : Path) : List Kind := kindsOfParts p.parts

def BinaryOp.kinds : BinaryOp → List Kind
  | add => [.symbol .plus]
  | sub => [.symbol .minus]
  | mul => [.symbol .star]
  | div => [.symbol .slash]
  | mod => [.symbol .percent]
  | eq => [.symbol .eq]
  | notEq => [.symbol .notEq]
  | lt => [.symbol .lt]
  | ltEq => [.symbol .ltEq]
  | gt => [.symbol .gt]
  | gtEq => [.symbol .gtEq]
  | like => [.keyword .like]
  | notLike => [.keyword .not, .keyword .like]
  | and => [.keyword .and]
  | or => [.keyword .or]
  | concat => [.symbol .concat]
  | bitAnd => [.symbol .bitAnd]
  | bitOr => [.symbol .bitOr]
  | leftShift => [.symbol .leftShift]
  | rightShift => [.symbol .rightShift]

namespace Expr

/-- The tokens of an operand, in parentheses where its text is. -/
def enclosedKinds (inner outer : Nat) (strict : Bool) (ks : List Kind) : List Kind :=
  if inner < outer ∨ (strict ∧ inner = outer) then Token.enclosed ks else ks

/-- The word of a negated test. -/
def negation (negated : Bool) : List Kind := if negated then [.keyword .not] else []

mutual

def kinds : Expr → List Kind
  | literal l => l.kinds
  | field p => p.kinds
  | param p => [p.kind]
  | wildcard => [.symbol .star]
  | binary l op r =>
    enclosedKinds l.precedence op.precedence false (kinds l) ++ op.kinds
      ++ enclosedKinds r.precedence op.precedence true (kinds r)
  | unary .not e => .keyword .not :: enclosedKinds e.precedence Precedence.not false (kinds e)
  | unary .neg e =>
    .symbol .minus ::
      (if e.isNumber then Token.enclosed (kinds e)
      else enclosedKinds e.precedence Precedence.atom false (kinds e))
  | isNull e negated =>
    enclosedKinds e.precedence Precedence.compare false (kinds e)
      ++ .keyword .is :: (negation negated ++ [.keyword .null])
  | isIn e es negated =>
    enclosedKinds e.precedence Precedence.compare false (kinds e)
      ++ (negation negated ++ .keyword .in :: Token.enclosed (kindsAll es))
  | between e low high negated =>
    enclosedKinds e.precedence Precedence.compare false (kinds e)
      ++ (negation negated ++ .keyword .between ::
        (enclosedKinds low.precedence Precedence.compare true (kinds low)
          ++ .keyword .and :: enclosedKinds high.precedence Precedence.compare true (kinds high)))
  | call function es distinct =>
    .identifier function ::
      Token.enclosed ((if distinct then [.keyword .distinct] else []) ++ kindsAll es)

/-- The tokens of several expressions with commas between them. -/
def kindsAll : List Expr → List Kind
  | [] => []
  | [e] => kinds e
  | e :: f :: rest => kinds e ++ .symbol .comma :: kindsAll (f :: rest)

end

theorem kindsAll_eq_listed (es : List Expr) : kindsAll es = listed (es.map kinds) := by
  induction es with
  | nil => rfl
  | cons e es ih =>
    cases es with
    | nil => rfl
    | cons f es =>
      rw [kindsAll, ih]
      rfl

theorem renderAll_eq_intercalate (d : Dialect) (es : List Expr) :
    renderAll d es = String.intercalate ", " (es.map (render d)) := by
  induction es with
  | nil => rfl
  | cons e es ih =>
    cases es with
    | nil => rfl
    | cons f es =>
      rw [renderAll, ih]
      simp only [List.map_cons, String.intercalate_cons_cons]

end Expr

/-! ### Texts of the parts -/

private theorem toList_toString_int (i : Int) :
    (toString i).toList = if i < 0 then '-' :: (toString i.natAbs).toList else (toString i.natAbs).toList := by
  rw [Int.toString_eq_repr, Int.repr_eq_if, Nat.toString_eq_repr]
  by_cases h : i < 0
  · have habs : (-i).toNat = i.natAbs := by omega
    rw [if_pos h, if_neg (by omega), String.toList_append, habs]
    rfl
  · have habs : i.toNat = i.natAbs := by omega
    rw [if_neg h, if_pos (by omega), habs]

private theorem natAbs_toInt_lt (i : Int64) : i.toInt.natAbs < UInt64.size := by
  have hlow := i.le_toInt
  have hhigh := i.toInt_lt
  have hsize : UInt64.size = 2 ^ 64 := rfl
  omega

private theorem digits_head_ne_minus (n : Nat) (rest : List Char) :
    ((toString n).toList ++ rest).head? ≠ some '-' := by
  rw [toList_toString]
  intro h
  cases hds : Nat.toDigits 10 n with
  | nil => exact toDigits_ne_nil n hds
  | cons c ds =>
    have hc := isDigit_toDigits n c (by simp [hds])
    obtain rfl : c = '-' := by simpa [hds] using h
    exact absurd hc (by decide)

theorem Literal.spells {l : Literal} (h : l.IsFinite) : Spells l.text l.kinds := by
  intro rest hrest
  cases l with
  | integer i =>
    have hnumber := kinds_integer (natAbs_toInt_lt i) hrest
    rw [Literal.text, Literal.kinds, toList_toString_int]
    split
    · rw [List.cons_append, kinds_minus (digits_head_ne_minus _ rest), hnumber]
      rfl
    · rw [hnumber]
      rfl
  | float x =>
    rw [Literal.text, Literal.kinds, kinds_float h hrest]
    split <;> rfl
  | string s =>
    rw [Literal.text, String.toList_ofList]
    exact kinds_string s fun hc => (hrest _ hc).2.1 rfl
  | blob bytes =>
    rw [Literal.text, String.toList_ofList, List.cons_append, List.cons_append, List.append_assoc]
    exact kinds_blob bytes fun hc => (hrest _ hc).2.1 rfl
  | boolean b =>
    cases b with
    | true => exact kinds_keyword .true hrest.severed
    | false => exact kinds_keyword .false hrest.severed
  | null => exact kinds_keyword .null hrest.severed

theorem Param.spells {p : Param} (h : p.WellFormed) : Spells p.text [p.kind] := by
  intro rest hrest
  cases p with
  | positional n =>
    rw [Param.text, String.toList_append, List.append_assoc]
    exact kinds_positional n hrest
  | named name =>
    rw [Param.text, String.toList_append, List.append_assoc]
    exact kinds_named h.1 h.2 hrest

theorem Path.kinds_parts {d : Dialect} (hd : d.quote = '"') {parts : List String} (h : "" ∉ parts)
    {rest : List Char} (hrest : Severed rest) :
    Token.kinds ((String.intercalate "." (parts.map d.identifier)).toList ++ rest) =
      kindsOfParts parts ++ Token.kinds rest := by
  induction parts with
  | nil => rfl
  | cons name parts ih =>
    have hname : name ≠ "" := fun he => h (he ▸ List.mem_cons_self)
    have hparts : "" ∉ parts := fun he => h (List.mem_cons_of_mem _ he)
    cases parts with
    | nil => exact kinds_identifier hd hname hrest
    | cons other parts =>
      have hsplit : (String.intercalate "." ((name :: other :: parts).map d.identifier)).toList ++ rest =
          (d.identifier name).toList ++ '.' ::
            ((String.intercalate "." ((other :: parts).map d.identifier)).toList ++ rest) := by
        simp [String.toList_append]
      rw [hsplit, kinds_identifier hd hname (Severed.dot _), kinds_dot, ih hparts]
      rfl

/-- A path may also have an equals sign directly after it. -/
theorem Path.kinds_render {d : Dialect} (hd : d.quote = '"') {p : Path} (h : p.WellFormed)
    {rest : List Char} (hrest : Severed rest) :
    Token.kinds ((p.render d).toList ++ rest) = p.kinds ++ Token.kinds rest :=
  kinds_parts hd h.2 hrest

theorem Path.spells {d : Dialect} (hd : d.quote = '"') {p : Path} (h : p.WellFormed) :
    Spells (p.render d) p.kinds :=
  fun _ hrest => kinds_render hd h hrest.severed

/-- An operator with blanks around it. -/
theorem BinaryOp.spells (op : BinaryOp) {left right : String} {ks ls : List Kind} (hl : Spells left ks)
    (hr : Spells right ls) : Spells (left ++ " " ++ op.text ++ " " ++ right) (ks ++ op.kinds ++ ls) := by
  intro rest hrest
  have hop : ∀ cs, Token.kinds (op.text.toList ++ ' ' :: cs) = op.kinds ++ Token.kinds cs := by
    intro cs
    have hword : ∀ k : Keyword, Token.kinds (k.text.toList ++ ' ' :: cs) = .keyword k :: Token.kinds cs :=
      fun k => by rw [kinds_keyword k (Apart.space cs).severed, kinds_space]
    have hnext : Token.kinds (Keyword.not.text.toList ++ ' ' :: (Keyword.like.text.toList ++ ' ' :: cs)) =
        .keyword .not :: .keyword .like :: Token.kinds cs := by
      rw [kinds_keyword .not (Apart.space _).severed, kinds_space, hword]
    have hchar : ∀ (c : Char) (s : Symbol), Symbol.ofChar? c = some s → Symbol.ofPair? c ' ' = none →
        Token.kinds (c :: ' ' :: cs) = .symbol s :: Token.kinds cs := by
      intro c s hs hpair
      rw [kinds_symbol hs (fun d hd => by cases hd; exact hpair) (fun _ => by simp), kinds_space]
    have hpair : ∀ (c d : Char) (s : Symbol), Symbol.ofPair? c d = some s →
        Token.kinds (c :: d :: ' ' :: cs) = .symbol s :: Token.kinds cs := by
      intro c d s hs
      rw [kinds_pair _ hs, kinds_space]
    cases op
    case like => exact hword .like
    case and => exact hword .and
    case or => exact hword .or
    case notLike => exact hnext
    case notEq => exact hpair '<' '>' .notEq rfl
    case ltEq => exact hpair '<' '=' .ltEq rfl
    case gtEq => exact hpair '>' '=' .gtEq rfl
    case concat => exact hpair '|' '|' .concat rfl
    case leftShift => exact hpair '<' '<' .leftShift rfl
    case rightShift => exact hpair '>' '>' .rightShift rfl
    all_goals exact hchar _ _ rfl rfl
  have hsplit : (left ++ " " ++ op.text ++ " " ++ right).toList ++ rest =
      left.toList ++ ' ' :: (op.text.toList ++ ' ' :: (right.toList ++ rest)) := by
    simp [String.toList_append]
  rw [hsplit, hl _ (Apart.space _), kinds_space, hop, hr rest hrest]
  simp only [List.append_assoc]

/-! ### Texts of expressions -/

theorem BinaryOp.precedence_lt_atom (op : BinaryOp) : op.precedence < Precedence.atom := by
  cases op <;> decide

theorem UnaryOp.precedence_lt_atom (op : UnaryOp) : op.precedence < Precedence.atom := by
  cases op <;> decide

namespace Expr

private theorem unsigned_path {d : Dialect} (hd : d.quote = '"') {p : Path} (h : p.WellFormed) :
    Unsigned (p.render d) := by
  rw [Path.render]
  cases hcs : p.parts with
  | nil => exact absurd hcs h.1
  | cons name parts =>
    cases parts with
    | nil => exact .identifier hd name
    | cons other parts =>
      rw [List.map_cons, List.map_cons, String.intercalate_cons_cons, String.append_assoc]
      exact (Unsigned.identifier hd name).append _

/-- No operand that may stand directly after a minus sign begins with one. -/
theorem unsigned_render {d : Dialect} (hd : d.quote = '"') {e : Expr} (hatom : e.precedence = Precedence.atom)
    (hnumber : e.isNumber = false) (h : e.WellFormed) : Unsigned (e.render d) := by
  cases e with
  | literal l =>
    cases l with
    | integer i => cases hnumber
    | float x => cases hnumber
    | string s => exact ⟨'\'', _, String.toList_ofList, by decide⟩
    | blob bytes => exact ⟨'X', _, String.toList_ofList, by decide⟩
    | boolean b =>
      cases b with
      | true => exact ⟨'T', ['R', 'U', 'E'], by rw [render]; rfl, by decide⟩
      | false => exact ⟨'F', ['A', 'L', 'S', 'E'], by rw [render]; rfl, by decide⟩
    | null => exact ⟨'N', ['U', 'L', 'L'], by rw [render]; rfl, by decide⟩
  | field p => exact unsigned_path hd h
  | param p =>
    cases p with
    | positional n => exact ⟨'?', _, String.toList_append, by decide⟩
    | named name => exact ⟨':', _, String.toList_append, by decide⟩
  | wildcard => exact ⟨'*', [], by rw [render]; rfl, by decide⟩
  | call f es distinct =>
    rw [render, String.append_assoc, String.append_assoc, String.append_assoc]
    exact (Unsigned.identifier hd f).append _
  | binary l op r => exact absurd hatom (Nat.ne_of_lt op.precedence_lt_atom)
  | unary op e => exact absurd hatom (Nat.ne_of_lt op.precedence_lt_atom)
  | isNull e n => cases hatom
  | isIn e es n => cases hatom
  | between e l h n => cases hatom

theorem spells_enclosed (inner outer : Nat) (strict : Bool) {text : String} {ks : List Kind}
    (h : Spells text ks) : Spells (enclosed inner outer strict text) (enclosedKinds inner outer strict ks) := by
  unfold enclosed enclosedKinds
  split
  · exact h.paren
  · exact h

private theorem spells_negation {text other : String} {ks ls : List Kind} (negated : Bool)
    (h : Spells text ks) (h' : Spells other ls) :
    Spells (text ++ (if negated then " NOT " else " ") ++ other) (ks ++ (negation negated ++ ls)) := by
  cases negated with
  | false => exact h.spaced h'
  | true =>
    have hword := (h.spaced (Spells.keyword .not)).spaced h'
    have hnot : (" NOT " : String) = " " ++ Keyword.not.text ++ " " := rfl
    simp only [if_true, negation, hnot, ← String.append_assoc, ← List.append_assoc]
    exact hword

private theorem spells_all {d : Dialect} {es : List Expr} (h : ∀ e ∈ es, Spells (e.render d) e.kinds) :
    Spells (renderAll d es) (kindsAll es) := by
  rw [renderAll_eq_intercalate, kindsAll_eq_listed]
  apply Spells.listed
  rw [List.forall₂_map_left_iff, List.forall₂_map_right_iff, List.forall₂_same]
  exact h

private theorem spells_atom {d : Dialect} (hd : d.quote = '"') {e : Expr} (h : e.WellFormed)
    (hnumber : e.isNumber = false) (hspells : Spells (e.render d) e.kinds) :
    Spells ("-" ++ enclosed e.precedence Precedence.atom false (e.render d))
      (.symbol .minus :: enclosedKinds e.precedence Precedence.atom false e.kinds) := by
  have hle : e.precedence ≤ Precedence.atom := by
    cases e with
    | binary l op r => exact Nat.le_of_lt op.precedence_lt_atom
    | unary op e => exact Nat.le_of_lt op.precedence_lt_atom
    | isNull e n => exact (by decide : Precedence.compare ≤ Precedence.atom)
    | isIn e es n => exact (by decide : Precedence.compare ≤ Precedence.atom)
    | between e l h n => exact (by decide : Precedence.compare ≤ Precedence.atom)
    | _ => exact Nat.le_refl _
  by_cases hatom : e.precedence = Precedence.atom
  · simp only [enclosed, enclosedKinds, hatom, Nat.lt_irrefl, Bool.false_eq_true, false_and, or_false, if_false]
    exact hspells.minus (unsigned_render hd hatom hnumber h)
  · have hlt : e.precedence < Precedence.atom := by omega
    simp only [enclosed, enclosedKinds, hlt, true_or, if_true]
    exact hspells.paren.minus (Unsigned.paren _)

/-- The text of an expression is read as its tokens. -/
theorem spells {d : Dialect} (hd : d.quote = '"') {e : Expr} (h : e.WellFormed)
    (hfinite : ∀ l ∈ e.literals, l.IsFinite) : Spells (e.render d) e.kinds := by
  induction e using recurse with
  | literal l => exact Literal.spells (hfinite l List.mem_cons_self)
  | field p => exact Path.spells hd h
  | param p => exact Param.spells h
  | wildcard => exact Spells.star
  | binary l op r hl hr =>
    obtain ⟨hfl, hfr⟩ := List.forall_mem_append.1 hfinite
    exact op.spells (spells_enclosed _ _ _ (hl h.1 hfl)) (spells_enclosed _ _ _ (hr h.2 hfr))
  | unary op e he =>
    have he := he h hfinite
    cases op with
    | not => exact (Spells.keyword .not).spaced (spells_enclosed _ _ _ he)
    | neg =>
      rw [render, kinds]
      split
      · exact he.paren.minus (Unsigned.paren _)
      · rename_i hnumber
        exact spells_atom hd h (by simpa using hnumber) he
  | isNull e n he =>
    have htest := spells_negation n (Spells.keyword .is) (Spells.keyword .null)
    have htext : (if n then " IS NOT NULL" else " IS NULL") =
        " " ++ (Keyword.is.text ++ (if n then " NOT " else " ") ++ Keyword.null.text) := by
      cases n <;> rfl
    rw [render, kinds, htext, ← String.append_assoc]
    exact (spells_enclosed _ _ _ (he h hfinite)).spaced htest
  | isIn e es n he hes =>
    obtain ⟨hfe, hfes⟩ := List.forall_mem_append.1 hfinite
    rw [literalsAll_eq_flatMap] at hfes
    have hall := spells_all fun x hx =>
      hes x hx (allWellFormed_iff.1 h.2.2 x hx) fun l hl => hfes l (List.mem_flatMap.2 ⟨x, hx, hl⟩)
    have hlist := spells_negation n (spells_enclosed e.precedence Precedence.compare false (he h.1 hfe))
      ((Spells.keyword .in).spaced hall.paren)
    have htext : (if n then " NOT IN (" else " IN (") =
        (if n then " NOT " else " ") ++ Keyword.in.text ++ " " ++ "(" := by
      cases n <;> rfl
    rw [render, kinds, htext]
    simp only [String.append_assoc] at hlist ⊢
    exact hlist
  | between e l u n he hl hu =>
    obtain ⟨hfel, hfu⟩ := List.forall_mem_append.1 hfinite
    obtain ⟨hfe, hfl⟩ := List.forall_mem_append.1 hfel
    have hbounds := ((spells_enclosed l.precedence Precedence.compare true (hl h.2.1 hfl)).spaced
      (Spells.keyword .and)).spaced (spells_enclosed u.precedence Precedence.compare true (hu h.2.2 hfu))
    have htest := spells_negation n (spells_enclosed e.precedence Precedence.compare false (he h.1 hfe))
      ((Spells.keyword .between).spaced hbounds)
    have htext : (if n then " NOT BETWEEN " else " BETWEEN ") =
        (if n then " NOT " else " ") ++ Keyword.between.text ++ " " := by
      cases n <;> rfl
    have hand : (" AND " : String) = " " ++ Keyword.and.text ++ " " := rfl
    rw [render, kinds, htext, hand]
    simp only [String.append_assoc, List.append_assoc] at htest ⊢
    exact htest
  | call f es distinct hes =>
    have hall := spells_all fun x hx =>
      hes x hx (allWellFormed_iff.1 h.2 x hx) fun l hl =>
        hfinite l (by rw [literals, literalsAll_eq_flatMap]; exact List.mem_flatMap.2 ⟨x, hx, hl⟩)
    have hinside : Spells ((if distinct then "DISTINCT " else "") ++ renderAll d es)
        ((if distinct then [.keyword .distinct] else []) ++ kindsAll es) := by
      cases distinct with
      | true => exact (Spells.keyword .distinct).spaced hall
      | false =>
        simp only [Bool.false_eq_true, if_false, String.empty_append, List.nil_append]
        exact hall
    rw [render, kinds]
    simp only [String.append_assoc] at hinside ⊢
    have hcall := Spells.identifier_paren hd h.1 hinside
    simp only [String.append_assoc] at hcall
    exact hcall

end Expr

end Clausal
