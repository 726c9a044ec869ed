/-
# The grammar of the calculator language

Which lists of tokens are sentences, and which trees they stand for. The rules are those of a
grammar and say nothing about how tokens are read: a phrase begins at one list of tokens and leaves
the tokens that follow it.

The grammar is ambiguous in one place only, the end of a `let` body. A parameter of the rules says
what may follow a body. When anything may, the rules are the plain grammar. When no operator may,
every body extends as far to the right as possible, because an operator after a body could always
have been read as part of it. Both grammars have the same sentences, which is proved here without
any reader.
-/

import Tabletop.Decimal.Text
import Tabletop.Expr
import Tabletop.Token.Lexer

namespace Tabletop.Grammar

/-- A run of decimal digits that is not empty. -/
def IsDigits (cs : List Char) : Prop :=
  cs ≠ [] ∧ ∀ c ∈ cs, Token.isDigit c

/-- The number that the digits of one token stand for. `negative` says that a minus sign belongs
to them. Only integers can be out of range. -/
inductive Numeral (negative : Bool) (t : Token) : Number → Prop
  | integer {n : Int} :
      t.kind = .integer → IsDigits t.text.toList →
      n = (if negative then -(Decimal.ofDigits t.text.toList : Int)
        else Decimal.ofDigits t.text.toList) →
      Int64.minValue.toInt ≤ n → n ≤ Int64.maxValue.toInt →
      Numeral negative t (.int (Int64.ofInt n))
  | float {whole fraction : List Char} {x : Float} :
      t.kind = .float → IsDigits whole → IsDigits fraction →
      t.text.toList = whole ++ '.' :: fraction →
      x = (Decimal.ofParts whole fraction).toFloat →
      Numeral negative t (.float (if negative then -x else x))

/-- A number literal of one of some kinds. A minus sign must touch its digits. -/
inductive Literal (kinds : List TokenKind) : List Token → Number → List Token → Prop
  | plain {t : Token} {value : Number} {rest : List Token} :
      t.kind ∈ kinds → Numeral false t value → Literal kinds (t :: rest) value rest
  | negative {sign t : Token} {value : Number} {rest : List Token} :
      sign.kind = .minus → t.spaced = false → t.kind ∈ kinds → Numeral true t value →
      Literal kinds (sign :: t :: rest) value rest

/-- The kinds of a number literal where both may stand. -/
def numbers : List TokenKind :=
  [.float, .integer]

/-- Two literals with white space between them. -/
inductive Bounds (kinds : List TokenKind) : List Token → Number → Number → List Token → Prop
  | mk {ts mid rest : List Token} {t : Token} {lo hi : Number} :
      Literal kinds ts lo (t :: mid) → t.spaced = true → Literal kinds (t :: mid) hi rest →
      Bounds kinds ts lo hi rest

/-- The nonterminals that stand for a value. -/
inductive Level
  | term | factor | expr
  deriving DecidableEq, Repr

/-- `Phrase bodyEnds level ts e rest`: the tokens `ts` begin with a phrase of a level, which stands
for `e` and leaves `rest`. A `let` body may end only before a list of tokens that satisfies
`bodyEnds`. -/
inductive Phrase (bodyEnds : List Token → Prop) : Level → List Token → Expr → List Token → Prop
  | literal {ts rest : List Token} {value : Number} :
      Literal numbers ts value rest →
      Phrase bodyEnds .term ts (.literal value) rest
  | dice {t : Token} {rest : List Token} :
      t.kind = .dice →
      Phrase bodyEnds .term (t :: rest) (.dice t.text) rest
  | uniformInt {opening closing : Token} {ts rest : List Token} {lo hi : Int64} :
      opening.kind = .leftBracket →
      Bounds [.integer] ts (.int lo) (.int hi) (closing :: rest) →
      closing.kind = .rightBracket →
      Phrase bodyEnds .term (opening :: ts) (.uniformInt lo hi) rest
  | uniformFloat {opening closing : Token} {ts rest : List Token} {lo hi : Number} :
      opening.kind = .leftBrace →
      Bounds numbers ts lo hi (closing :: rest) →
      closing.kind = .rightBrace →
      Phrase bodyEnds .term (opening :: ts) (.uniformFloat lo.toFloat hi.toFloat) rest
  | bellInt {opening closing : Token} {ts rest : List Token} {lo hi : Int64} :
      opening.kind = .bellInt →
      Bounds [.integer] ts (.int lo) (.int hi) (closing :: rest) →
      closing.kind = .rightBracket →
      Phrase bodyEnds .term (opening :: ts) (.bellInt lo hi) rest
  | bellFloat {opening closing : Token} {ts rest : List Token} {lo hi : Float} :
      opening.kind = .bellFloat →
      Bounds [.float] ts (.float lo) (.float hi) (closing :: rest) →
      closing.kind = .rightBrace →
      Phrase bodyEnds .term (opening :: ts) (.bellFloat lo hi) rest
  | fuzz {opening comma closing : Token} {ts mid rest : List Token} {value : Expr}
      {distance : Number} :
      opening.kind = .fuzz →
      Phrase bodyEnds .expr ts value (comma :: mid) →
      comma.kind = .comma →
      Literal numbers mid distance (closing :: rest) →
      closing.kind = .rightParen →
      Phrase bodyEnds .term (opening :: ts) (.fuzz value distance.toFloat) rest
  | paren {opening closing : Token} {ts rest : List Token} {e : Expr} :
      opening.kind = .leftParen →
      Phrase bodyEnds .expr ts e (closing :: rest) →
      closing.kind = .rightParen →
      Phrase bodyEnds .term (opening :: ts) e rest
  | letIn {word name equal inWord : Token} {ts mid rest : List Token} {value body : Expr} :
      word.kind = .letWord → name.kind = .variable → equal.kind = .equal →
      Phrase bodyEnds .expr ts value (inWord :: mid) →
      inWord.kind = .inWord →
      Phrase bodyEnds .expr mid body rest →
      bodyEnds rest →
      Phrase bodyEnds .term (word :: name :: equal :: ts) (.letIn name.text value body) rest
  | name {t : Token} {rest : List Token} :
      t.kind = .variable →
      Phrase bodyEnds .term (t :: rest) (.variable t.text) rest
  | ofTerm {ts rest : List Token} {e : Expr} :
      Phrase bodyEnds .term ts e rest → Phrase bodyEnds .factor ts e rest
  | product {ts mid rest : List Token} {t : Token} {op : BinaryOp} {lhs rhs : Expr} :
      Phrase bodyEnds .factor ts lhs (t :: mid) → productOp? t.kind = some op →
      Phrase bodyEnds .term mid rhs rest →
      Phrase bodyEnds .factor ts (.binary op lhs rhs) rest
  | ofFactor {ts rest : List Token} {e : Expr} :
      Phrase bodyEnds .factor ts e rest → Phrase bodyEnds .expr ts e rest
  | sum {ts mid rest : List Token} {t : Token} {op : BinaryOp} {lhs rhs : Expr} :
      Phrase bodyEnds .expr ts lhs (t :: mid) → sumOp? t.kind = some op →
      Phrase bodyEnds .factor mid rhs rest →
      Phrase bodyEnds .expr ts (.binary op lhs rhs) rest

/-- A whole line of input, from its first token to its last. -/
inductive Sentence (bodyEnds : List Token → Prop) : List Token → Statement → Prop
  | evaluate {ts : List Token} {e : Expr} :
      Phrase bodyEnds .expr ts e [] → Sentence bodyEnds ts (.evaluate e)
  | assign {word name : Token} {ts : List Token} {e : Expr} :
      word.kind = .setWord → name.kind = .variable →
      Phrase bodyEnds .expr ts e [] →
      Sentence bodyEnds (word :: name :: ts) (.assign name.text e)
  | quantity {opening comma unit closing : Token} {ts : List Token} {amount : Expr} :
      opening.kind = .unit →
      Phrase bodyEnds .expr ts amount [comma, unit, closing] →
      comma.kind = .comma → unit.kind = .variable → closing.kind = .rightParen →
      Sentence bodyEnds (opening :: ts) (.quantity amount unit.text)

/-- Anything may follow the body of a `let`, as in the grammar as it is written. -/
def Anything (_ : List Token) : Prop :=
  True

/-- No operator stands at the beginning. A `let` body that ends here extends as far to the right as
it can. -/
def NoOperator (rest : List Token) : Prop :=
  ∀ t ∈ rest.head?, sumOp? t.kind = none ∧ productOp? t.kind = none

/-- The input is a sentence of the calculator language. -/
def IsSentence (input : String) : Prop :=
  ∃ s, Sentence Anything (Token.scan input) s

/-! ## Bodies that extend as far as possible -/

theorem noOperator_nil : NoOperator [] := by
  simp [NoOperator]

/-- A token that is no operator stops every body. -/
theorem noOperator_cons {t : Token} {kind : TokenKind} {rest : List Token} (hkind : t.kind = kind)
    (hnone : sumOp? kind = none ∧ productOp? kind = none := by decide) :
    NoOperator (t :: rest) := by
  simpa [NoOperator, hkind] using hnone

/-- `Continues rest final`: operators with their right operands lead from `rest` to `final`, where
none can follow. All `let` bodies in them extend as far as possible. -/
inductive Continues : List Token → List Token → Prop
  | stop {rest : List Token} : NoOperator rest → Continues rest rest
  | next {t : Token} {op : BinaryOp} {ts mid final : List Token} {e : Expr} :
      sumOp? t.kind = some op ∨ productOp? t.kind = some op →
      Phrase NoOperator .term ts e mid → Continues mid final → Continues (t :: ts) final

/-- A chain of terms and operators that cannot be continued. -/
def Chain (ts final : List Token) : Prop :=
  ∃ e mid, Phrase NoOperator .term ts e mid ∧ Continues mid final

theorem Continues.noOperator {rest final : List Token} (h : Continues rest final) :
    NoOperator final := by
  induction h with
  | stop hstop => exact hstop
  | next _ _ _ ih => exact ih

/-- What stands to the left of a factor on its level: nothing, or a sum and its operator. -/
def LeftOf (first ts : List Token) : Prop :=
  ts = first ∨ ∃ lhs t op, Phrase NoOperator .expr first lhs (t :: ts) ∧ sumOp? t.kind = some op

theorem LeftOf.close {first ts rest : List Token} {e : Expr} (hleft : LeftOf first ts)
    (hfactor : Phrase NoOperator .factor ts e rest) :
    ∃ sum, Phrase NoOperator .expr first sum rest := by
  rcases hleft with rfl | ⟨lhs, t, op, hlhs, hop⟩
  · exact ⟨e, .ofFactor hfactor⟩
  · exact ⟨.binary op lhs e, .sum hlhs hop hfactor⟩

/-- Operators that follow a factor are sorted into products and sums. -/
theorem Continues.close {rest final : List Token} (h : Continues rest final) :
    ∀ {first ts : List Token} {e : Expr}, LeftOf first ts → Phrase NoOperator .factor ts e rest →
      ∃ sum, Phrase NoOperator .expr first sum final := by
  induction h with
  | stop _ => exact fun hleft hfactor => hleft.close hfactor
  | next hop hterm _ ih =>
      intro first ts e hleft hfactor
      rcases hop with hsum | hproduct
      · obtain ⟨sum, hsum'⟩ := hleft.close hfactor
        exact ih (.inr ⟨sum, _, _, hsum', hsum⟩) (.ofTerm hterm)
      · exact ih hleft (.product hfactor hproduct hterm)

/-- A chain is an expression. -/
theorem Chain.expr {ts final : List Token} (h : Chain ts final) :
    ∃ e, Phrase NoOperator .expr ts e final := by
  obtain ⟨e, mid, hterm, hcontinues⟩ := h
  exact hcontinues.close (.inl rfl) (.ofTerm hterm)

/-- A phrase of the plain grammar, together with whatever operators continue it, is a chain of
terms whose `let` bodies extend as far as possible. The induction is on the derivation: a body that
ended too early takes the continuation into itself. -/
theorem Phrase.chain {bodyEnds : List Token → Prop} {level : Level} {ts rest : List Token}
    {e : Expr} (h : Phrase bodyEnds level ts e rest) :
    ∀ {final : List Token}, Continues rest final → Chain ts final := by
  induction h with
  | literal hliteral => exact fun hnext => ⟨_, _, .literal hliteral, hnext⟩
  | dice hkind => exact fun hnext => ⟨_, _, .dice hkind, hnext⟩
  | uniformInt hopen hbounds hclose =>
      exact fun hnext => ⟨_, _, .uniformInt hopen hbounds hclose, hnext⟩
  | uniformFloat hopen hbounds hclose =>
      exact fun hnext => ⟨_, _, .uniformFloat hopen hbounds hclose, hnext⟩
  | bellInt hopen hbounds hclose =>
      exact fun hnext => ⟨_, _, .bellInt hopen hbounds hclose, hnext⟩
  | bellFloat hopen hbounds hclose =>
      exact fun hnext => ⟨_, _, .bellFloat hopen hbounds hclose, hnext⟩
  | name hkind => exact fun hnext => ⟨_, _, .name hkind, hnext⟩
  | fuzz hopen _ hcomma hdistance hclose ih =>
      intro final hnext
      obtain ⟨value, hvalue⟩ := (ih (.stop (noOperator_cons hcomma))).expr
      exact ⟨_, _, .fuzz hopen hvalue hcomma hdistance hclose, hnext⟩
  | paren hopen _ hclose ih =>
      intro final hnext
      obtain ⟨e, he⟩ := (ih (.stop (noOperator_cons hclose))).expr
      exact ⟨_, _, .paren hopen he hclose, hnext⟩
  | letIn hword hname hequal _ hin _ _ ihvalue ihbody =>
      intro final hnext
      obtain ⟨value, hvalue⟩ := (ihvalue (.stop (noOperator_cons hin))).expr
      obtain ⟨body, hbody⟩ := (ihbody hnext).expr
      have hends := hnext.noOperator
      exact ⟨_, _, .letIn hword hname hequal hvalue hin hbody hends, .stop hends⟩
  | ofTerm _ ih => exact ih
  | ofFactor _ ih => exact ih
  | product _ hop _ ihleft ihright =>
      intro final hnext
      obtain ⟨e, mid, hterm, hcontinues⟩ := ihright hnext
      exact ihleft (.next (.inr hop) hterm hcontinues)
  | sum _ hop _ ihleft ihright =>
      intro final hnext
      obtain ⟨e, mid, hterm, hcontinues⟩ := ihright hnext
      exact ihleft (.next (.inl hop) hterm hcontinues)

/-- An expression that no operator follows can be read with bodies that extend as far as
possible. -/
theorem Phrase.extend {bodyEnds : List Token → Prop} {level : Level} {ts rest : List Token}
    {e : Expr} (h : Phrase bodyEnds level ts e rest) (hends : NoOperator rest) :
    ∃ e', Phrase NoOperator .expr ts e' rest :=
  (h.chain (.stop hends)).expr

/-- Every sentence of the plain grammar has a reading in which all bodies extend as far as
possible. -/
theorem Sentence.extend {bodyEnds : List Token → Prop} {ts : List Token} {s : Statement}
    (h : Sentence bodyEnds ts s) : ∃ s', Sentence NoOperator ts s' := by
  cases h with
  | evaluate he =>
      obtain ⟨e', he'⟩ := he.extend noOperator_nil
      exact ⟨_, .evaluate he'⟩
  | assign hword hname he =>
      obtain ⟨e', he'⟩ := he.extend noOperator_nil
      exact ⟨_, .assign hword hname he'⟩
  | quantity hopen he hcomma hunit hclose =>
      obtain ⟨e', he'⟩ := he.extend (noOperator_cons hcomma)
      exact ⟨_, .quantity hopen he' hcomma hunit hclose⟩

/-- A condition on where bodies end can be dropped. -/
theorem Phrase.weaken {bodyEnds : List Token → Prop} {level : Level} {ts rest : List Token}
    {e : Expr} (h : Phrase bodyEnds level ts e rest) : Phrase Anything level ts e rest := by
  induction h with
  | literal hliteral => exact .literal hliteral
  | dice hkind => exact .dice hkind
  | uniformInt hopen hbounds hclose => exact .uniformInt hopen hbounds hclose
  | uniformFloat hopen hbounds hclose => exact .uniformFloat hopen hbounds hclose
  | bellInt hopen hbounds hclose => exact .bellInt hopen hbounds hclose
  | bellFloat hopen hbounds hclose => exact .bellFloat hopen hbounds hclose
  | name hkind => exact .name hkind
  | fuzz hopen _ hcomma hdistance hclose ih => exact .fuzz hopen ih hcomma hdistance hclose
  | paren hopen _ hclose ih => exact .paren hopen ih hclose
  | letIn hword hname hequal _ hin _ _ ihvalue ihbody =>
      exact .letIn hword hname hequal ihvalue hin ihbody trivial
  | ofTerm _ ih => exact .ofTerm ih
  | ofFactor _ ih => exact .ofFactor ih
  | product _ hop _ ihleft ihright => exact .product ihleft hop ihright
  | sum _ hop _ ihleft ihright => exact .sum ihleft hop ihright

theorem Sentence.weaken {bodyEnds : List Token → Prop} {ts : List Token} {s : Statement}
    (h : Sentence bodyEnds ts s) : Sentence Anything ts s := by
  cases h with
  | evaluate he => exact .evaluate he.weaken
  | assign hword hname he => exact .assign hword hname he.weaken
  | quantity hopen he hcomma hunit hclose => exact .quantity hopen he.weaken hcomma hunit hclose

/-! ## What a phrase leaves -/

theorem Literal.suffix {kinds : List TokenKind} {ts rest : List Token} {value : Number}
    (h : Literal kinds ts value rest) : rest <:+ ts := by
  cases h with
  | plain => exact List.suffix_cons _ _
  | negative => exact (List.suffix_cons _ _).trans (List.suffix_cons _ _)

theorem Bounds.suffix {kinds : List TokenKind} {ts rest : List Token} {lo hi : Number}
    (h : Bounds kinds ts lo hi rest) : rest <:+ ts := by
  cases h with
  | mk hlo _ hhi => exact hhi.suffix.trans hlo.suffix

/-- A phrase leaves the end of the tokens at which it begins. -/
theorem Phrase.suffix {bodyEnds : List Token → Prop} {level : Level} {ts rest : List Token}
    {e : Expr} (h : Phrase bodyEnds level ts e rest) : rest <:+ ts := by
  have hcons : ∀ {t : Token} {us vs : List Token}, t :: us <:+ vs → us <:+ vs :=
    fun h => (List.suffix_cons _ _).trans h
  have hopen : ∀ {t : Token} {us vs : List Token}, us <:+ vs → us <:+ t :: vs :=
    fun h => h.trans (List.suffix_cons _ _)
  induction h with
  | literal hliteral => exact hliteral.suffix
  | dice | name => exact List.suffix_cons _ _
  | uniformInt _ hbounds | uniformFloat _ hbounds | bellInt _ hbounds | bellFloat _ hbounds =>
      exact hopen (hcons hbounds.suffix)
  | fuzz _ _ _ hdistance _ ih => exact hopen ((hcons hdistance.suffix).trans (hcons ih))
  | paren _ _ _ ih => exact hopen (hcons ih)
  | letIn _ _ _ _ _ _ _ ihvalue ihbody =>
      exact hopen (hopen (hopen (ihbody.trans (hcons ihvalue))))
  | ofTerm _ ih | ofFactor _ ih => exact ih
  | product _ _ _ ihleft ihright | sum _ _ _ ihleft ihright => exact ihright.trans (hcons ihleft)

end Tabletop.Grammar
