/-
# The classes of tokens

Every kind of token has a class of texts: one text for a keyword or a mark, and a pattern for
numbers, dice and names. The classes say nothing about how an input is split. They overlap and have
beginnings in common, so two rules choose between them: the longest text counts, and where a text
belongs to two classes it is a keyword and not a name.

The lexer follows both rules. What it cuts from a place is the longest of all texts there that
belong to a class, with the kind that counts.
-/

import Tabletop.Proofs.Grammar.Numeral
import Tabletop.Proofs.Spacing

namespace Tabletop.Token

open Grammar

/-! ## Classes -/

/-- The names with a meaning of their own. -/
def keywords : List (TokenKind × String) :=
  [(.inWord, "in"), (.letWord, "let"), (.setWord, "set")]

/-- The names that form one token with the bracket behind them. -/
def openers : List (TokenKind × String × Char) :=
  [(.fuzz, "fuzz", '('), (.bellFloat, "bell", '\x7b'), (.bellInt, "bell", '['), (.unit, "u", '(')]

/-- The tokens of one character. -/
def marks : List (TokenKind × Char) :=
  [(.leftParen, '('), (.rightParen, ')'), (.leftBracket, '['), (.rightBracket, ']'),
    (.leftBrace, '\x7b'), (.rightBrace, '\x7d'), (.comma, ','), (.equal, '='),
    (.plus, '+'), (.minus, '-'), (.star, '*'), (.slash, '/')]

/-- `Lexeme kind text`: the text belongs to the class of a kind. -/
inductive Lexeme : TokenKind → List Char → Prop
  | keyword {kind : TokenKind} {name : String} {text : List Char} :
      (kind, name) ∈ keywords → text = name.toList → Lexeme kind text
  | opener {kind : TokenKind} {name : String} {bracket : Char} {text : List Char} :
      (kind, name, bracket) ∈ openers → text = name.toList ++ [bracket] → Lexeme kind text
  | mark {kind : TokenKind} {c : Char} : (kind, c) ∈ marks → Lexeme kind [c]
  | dice {count sides text : List Char} :
      IsDigits count → IsDigits sides → text = count ++ 'd' :: sides → Lexeme .dice text
  | float {whole fraction text : List Char} :
      IsDigits whole → IsDigits fraction → text = whole ++ '.' :: fraction → Lexeme .float text
  | integer {text : List Char} : IsDigits text → Lexeme .integer text
  | name {text : List Char} : text ≠ [] → (∀ c ∈ text, isLetter c) → Lexeme .variable text

/-- `Munch kind text rest`: of all texts at the beginning of `text ++ rest` that belong to a class,
`text` is the longest, and its kind is `kind`. -/
structure Munch (kind : TokenKind) (text rest : List Char) : Prop where
  lexeme : Lexeme kind text
  longest (kind' : TokenKind) (text' : List Char) :
    text' <+: text ++ rest → Lexeme kind' text' → text'.length ≤ text.length
  first (kind' : TokenKind) :
    Lexeme kind' text → kind' = kind ∨ kind' = .variable ∧ kind ∈ keywords.map Prod.fst

/-- `Cut kind text rest`: a token of the kind is cut from the beginning of `text ++ rest`. Where
nothing belongs to a class and no white space stands, a single character is cut. -/
inductive Cut : TokenKind → List Char → List Char → Prop
  | lexeme {kind : TokenKind} {text rest : List Char} : Munch kind text rest → Cut kind text rest
  | unknown {c : Char} {rest : List Char} :
      isSeparator c = false → (∀ kind text, text <+: c :: rest → ¬ Lexeme kind text) →
      Cut .unknown [c] rest

/-! ## What belongs to a class -/

section Classes

variable {kind : TokenKind} {text : List Char}

theorem Lexeme.ne_nil (h : Lexeme kind text) : text ≠ [] := by
  cases h with
  | keyword hmem htext =>
      rintro rfl
      have hne : ∀ entry ∈ keywords, [] ≠ entry.2.toList := by decide
      exact hne _ hmem htext
  | opener _ htext | dice _ _ htext | float _ _ htext => simp [htext]
  | mark => simp
  | integer hdigits => exact hdigits.1
  | name hne => exact hne

theorem not_lexeme_unknown : ¬ Lexeme .unknown text := by
  intro h
  cases h with
  | keyword hmem => simp [keywords] at hmem
  | opener hmem => simp [openers] at hmem
  | mark hmem => simp [marks] at hmem

/-- A mark is neither a digit nor a letter, and it is cut as what it is. -/
theorem markKind_of_mem {c : Char} (h : (kind, c) ∈ marks) :
    ¬ isDigit c ∧ ¬ isLetter c ∧ markKind c = kind := by
  have hall : ∀ entry ∈ marks,
      ¬ isDigit entry.2 ∧ ¬ isLetter entry.2 ∧ markKind entry.2 = entry.1 := by decide
  exact hall _ h

theorem mem_marks {c : Char} (h : markKind c ≠ .unknown) : (markKind c, c) ∈ marks := by
  unfold markKind at h ⊢
  split at h
  case h_13 => exact absurd rfl h
  all_goals decide

/-- A keyword is a name. -/
theorem isLetter_of_mem_keywords {name : String} (h : (kind, name) ∈ keywords) :
    ∀ c ∈ name.toList, isLetter c := by
  have hall : ∀ entry ∈ keywords, entry.2.toList.all isLetter := by decide
  exact List.all_eq_true.mp (hall _ h)

theorem wordKind_of_mem {name : String} (h : (kind, name) ∈ keywords) : wordKind name = kind := by
  have hall : ∀ entry ∈ keywords, wordKind entry.2 = entry.1 := by decide
  exact hall _ h

/-- A word is a keyword or else a name. -/
theorem wordKind_cases (name : String) :
    (wordKind name, name) ∈ keywords ∨ wordKind name = .variable := by
  unfold wordKind
  split_ifs <;> simp_all [keywords]

end Classes

/-! ## Runs of characters -/

section Runs

variable {p : Char → Bool} {w rest : List Char}

/-- A run is at least as long as what is known to belong to it. -/
theorem length_le_run (h : ∀ c ∈ w, p c) (rest : List Char) : w.length ≤ run p (w ++ rest) := by
  rw [run, List.takeWhile_append_of_pos h, List.length_append]
  exact Nat.le_add_right _ _

theorem run_eq_length {c : Char} (h : ∀ d ∈ w, p d) (hc : ¬ p c) :
    run p (w ++ c :: rest) = w.length := by
  rw [run_append hc, run, List.takeWhile_eq_self_iff.mpr h]

/-- A run that is no longer than what is known to belong to it. -/
theorem takeWhile_eq_of_run (h : run p (w ++ rest) = w.length) :
    (w ++ rest).takeWhile p = w := by
  rw [← take_run, h, List.take_left]

end Runs

/-! ## The longest text of a class -/

/-- The token that was found is longer than a text of a class with `n` characters behind the first
one, or it is that text and its kind counts. -/
def Covers (found : TokenKind × Nat) (kind : TokenKind) (n : Nat) : Prop :=
  n < found.2 ∨
    n = found.2 ∧ (kind = found.1 ∨ kind = .variable ∧ found.1 ∈ keywords.map Prod.fst)

section Covers

variable {c : Char} {w rest : List Char}

theorem Covers.of_le {found : TokenKind × Nat} {n : Nat} (h : n ≤ found.2) :
    Covers found found.1 n := by
  rcases Nat.lt_or_eq_of_le h with hlt | heq
  · exact .inl hlt
  · exact .inr ⟨heq, .inl rfl⟩

theorem covers_integer (h : ∀ d ∈ w, isDigit d) :
    Covers (number (w ++ rest)) .integer w.length := by
  have hle := length_le_run h rest
  have hinteger : Covers (.integer, run isDigit (w ++ rest)) .integer w.length := .of_le hle
  rw [number.eq_1]
  split
  · next more _ =>
    dsimp only
    split_ifs
    · exact hinteger
    · exact .inl (by dsimp only; omega)
  · next more _ =>
    dsimp only
    split_ifs
    · exact hinteger
    · exact .inl (by dsimp only; omega)
  · exact hinteger

/-- Digits behind a mark are taken with it. -/
theorem covers_marked {kind : TokenKind} {mark : Char} {digits : List Char}
    (hkind : (kind, mark) ∈ [(TokenKind.dice, 'd'), (.float, '.')]) (h : ∀ d ∈ w, isDigit d)
    (hdigits : IsDigits digits) :
    Covers (number (w ++ mark :: digits ++ rest)) kind (w ++ mark :: digits).length := by
  have hmark : ∀ entry ∈ [(TokenKind.dice, 'd'), (.float, '.')], ¬ isDigit entry.2 := by decide
  have hrun : run isDigit (w ++ mark :: (digits ++ rest)) = w.length :=
    run_eq_length h (hmark _ hkind)
  have hle := length_le_run hdigits.2 rest
  have hpos := List.length_pos_iff.mpr hdigits.1
  have hne : run isDigit (digits ++ rest) ≠ 0 := by omega
  have hfound : number (w ++ mark :: (digits ++ rest)) =
      (kind, w.length + 1 + run isDigit (digits ++ rest)) := by
    rw [number.eq_1, hrun, List.drop_left]
    simp only [List.mem_cons, Prod.mk.injEq, List.not_mem_nil, or_false] at hkind
    rcases hkind with ⟨rfl, rfl⟩ | ⟨rfl, rfl⟩
    · exact if_neg hne
    · exact if_neg hne
  rw [List.append_assoc, List.cons_append, hfound, List.length_append, List.length_cons]
  exact .of_le (by dsimp only; omega)

/-- A word is cut to the end of its letters, or takes the bracket behind them with it. -/
theorem word_cases (c : Char) (cs : List Char) :
    word c cs = (wordKind (String.ofList (c :: cs.takeWhile isLetter)), run isLetter cs) ∨
      ∃ kind bracket rest, (kind, String.ofList (c :: cs.takeWhile isLetter), bracket) ∈ openers ∧
        cs.drop (run isLetter cs) = bracket :: rest ∧ word c cs = (kind, run isLetter cs + 1) := by
  rw [word.eq_1, take_run]
  cases hrest : cs.drop (run isLetter cs) with
  | nil => exact .inl rfl
  | cons bracket rest =>
      dsimp only [List.head?_cons]
      split
      · next heq =>
        cases heq
        split_ifs with hfuzz hunit
        · exact .inr ⟨_, _, rest, by rw [hfuzz]; decide, rfl, rfl⟩
        · exact .inr ⟨_, _, rest, by rw [hunit]; decide, rfl, rfl⟩
        · exact .inl rfl
      · next heq =>
        cases heq
        split_ifs with hbell
        · exact .inr ⟨_, _, rest, by rw [hbell]; decide, rfl, rfl⟩
        · exact .inl rfl
      · next heq =>
        cases heq
        split_ifs with hbell
        · exact .inr ⟨_, _, rest, by rw [hbell]; decide, rfl, rfl⟩
        · exact .inl rfl
      · exact .inl rfl

theorem covers_name (kind : TokenKind) (h : ∀ d ∈ w, isLetter d)
    (hkind : kind = .variable ∨ kind = wordKind (String.ofList (c :: w))) :
    Covers (word c (w ++ rest)) kind w.length := by
  have hle := length_le_run h rest
  rcases word_cases c (w ++ rest) with hword | ⟨_, _, _, -, -, hword⟩
  · rw [hword]
    rcases Nat.lt_or_eq_of_le hle with hlt | heq
    · exact .inl hlt
    · refine .inr ⟨heq, ?_⟩
      rw [takeWhile_eq_of_run heq.symm]
      rcases hkind with rfl | rfl
      · rcases wordKind_cases (String.ofList (c :: w)) with hmem | hvariable
        · exact .inr ⟨rfl, List.mem_map_of_mem hmem⟩
        · exact .inl hvariable.symm
      · exact .inl rfl
  · rw [hword]
    exact .inl (Nat.lt_succ_of_le hle)

theorem covers_opener {kind : TokenKind} {name : String} {bracket : Char}
    (hmem : (kind, name, bracket) ∈ openers) (htext : c :: w = name.toList ++ [bracket])
    (rest : List Char) :
    isLetter c ∧ word c (w ++ rest) = (kind, w.length) := by
  simp only [openers, List.mem_cons, Prod.mk.injEq, List.not_mem_nil, or_false] at hmem
  rcases hmem with ⟨rfl, rfl, rfl⟩ | ⟨rfl, rfl, rfl⟩ | ⟨rfl, rfl, rfl⟩ | ⟨rfl, rfl, rfl⟩ <;>
    · obtain ⟨rfl, rfl⟩ := List.cons.inj htext
      exact ⟨by decide, rfl⟩

/-- Nothing at a place that belongs to a class is longer than the token that is cut there, and if
it is as long, then its kind does not count. -/
theorem covers_longest {kind : TokenKind} (h : Lexeme kind (c :: w)) (rest : List Char) :
    Covers (longest c (w ++ rest)) kind w.length := by
  have hnumber : isDigit c → longest c (w ++ rest) = number (w ++ rest) := fun hc => by
    rw [longest, if_pos hc]
  have hword : isLetter c → longest c (w ++ rest) = word c (w ++ rest) := fun hc => by
    rw [longest, if_neg (not_isDigit_of_isLetter hc), if_pos hc]
  cases h with
  | @keyword _ name _ hmem htext =>
      have hletters := isLetter_of_mem_keywords hmem
      rw [← htext, List.forall_mem_cons] at hletters
      have hname : String.ofList (c :: w) = name := by rw [htext, String.ofList_toList]
      rw [hword hletters.1]
      exact covers_name kind hletters.2 (.inr (by rw [hname, wordKind_of_mem hmem]))
  | opener hmem htext =>
      obtain ⟨hc, hfound⟩ := covers_opener hmem htext rest
      rw [hword hc, hfound]
      exact .inr ⟨rfl, .inl rfl⟩
  | mark hmem =>
      obtain ⟨hdigit, hletter, hmark⟩ := markKind_of_mem hmem
      rw [longest, if_neg hdigit, if_neg hletter, hmark]
      exact .inr ⟨rfl, .inl rfl⟩
  | @dice count sides _ hcount hsides htext =>
      obtain ⟨first, more, rfl⟩ := List.exists_cons_of_ne_nil hcount.1
      obtain ⟨rfl, rfl⟩ := List.cons.inj htext
      obtain ⟨hc, hmore⟩ := List.forall_mem_cons.mp hcount.2
      rw [hnumber hc]
      exact covers_marked (by simp) hmore hsides
  | @float whole fraction _ hwhole hfraction htext =>
      obtain ⟨first, more, rfl⟩ := List.exists_cons_of_ne_nil hwhole.1
      obtain ⟨rfl, rfl⟩ := List.cons.inj htext
      obtain ⟨hc, hmore⟩ := List.forall_mem_cons.mp hwhole.2
      rw [hnumber hc]
      exact covers_marked (by simp) hmore hfraction
  | integer hdigits =>
      obtain ⟨hc, hw⟩ := List.forall_mem_cons.mp hdigits.2
      rw [hnumber hc]
      exact covers_integer hw
  | name _ hletters =>
      obtain ⟨hc, hw⟩ := List.forall_mem_cons.mp hletters
      rw [hword hc]
      exact covers_name .variable hw (.inl rfl)

end Covers

/-! ## The token that is cut -/

section Cutting

variable {c : Char} {cs : List Char}

theorem lexeme_word (hc : isLetter c) :
    Lexeme (word c cs).1 (c :: cs.take (word c cs).2) := by
  have hletters : ∀ d ∈ c :: cs.takeWhile isLetter, isLetter d := by
    rw [List.forall_mem_cons]
    exact ⟨hc, fun d hd => List.mem_takeWhile_imp hd⟩
  rcases word_cases c cs with hword | ⟨kind, bracket, rest, hmem, hrest, hword⟩
  · rw [hword, take_run]
    rcases wordKind_cases (String.ofList (c :: cs.takeWhile isLetter)) with hmem | hvariable
    · exact .keyword hmem String.toList_ofList.symm
    · rw [hvariable]
      exact .name (List.cons_ne_nil _ _) hletters
  · rw [hword]
    refine .opener hmem ?_
    rw [String.toList_ofList, List.take_add, hrest, take_run]
    rfl

theorem lexeme_number (hc : isDigit c) :
    Lexeme (number cs).1 (c :: cs.take (number cs).2) := by
  have hdigits := IsDigits.cons_takeWhile hc cs
  rcases number_cases cs with
    ⟨hkind, sides, hsides, htake⟩ | ⟨hkind, htake⟩ | ⟨hkind, fraction, hfraction, htake⟩
  · rw [hkind, htake]
    exact .dice hdigits hsides rfl
  · rw [hkind, htake]
    exact .integer hdigits
  · rw [hkind, htake]
    exact .float hdigits hfraction rfl

/-- What is cut belongs to the class of its kind, or it is one character of unknown kind. -/
theorem lexeme_longest (c : Char) (cs : List Char) :
    Lexeme (longest c cs).1 (c :: cs.take (longest c cs).2) ∨ longest c cs = (.unknown, 0) := by
  unfold longest
  split_ifs with hdigit hletter
  · exact .inl (lexeme_number hdigit)
  · exact .inl (lexeme_word hletter)
  · by_cases hunknown : markKind c = .unknown
    · exact .inr (by rw [hunknown])
    · exact .inl (.mark (mem_marks hunknown))

/-- Whatever belongs to a class at a place, the token that is cut there covers it. -/
theorem covers_beginning {kind : TokenKind} {text : List Char} (h : text <+: c :: cs)
    (hlexeme : Lexeme kind text) : Covers (longest c cs) kind (text.length - 1) := by
  obtain ⟨first, w, rfl⟩ := List.exists_cons_of_ne_nil hlexeme.ne_nil
  obtain ⟨rest, hrest⟩ := h
  obtain ⟨rfl, rfl⟩ := List.cons.inj hrest
  exact covers_longest hlexeme rest

/-- The lexer cuts the longest text that belongs to a class, and a single character where there is
none. -/
theorem cut_longest (h : ¬ isSeparator c) :
    Cut (longest c cs).1 (c :: cs.take (longest c cs).2) (cs.drop (longest c cs).2) := by
  rcases lexeme_longest c cs with hlexeme | hunknown
  · have htext : c :: cs.take (longest c cs).2 ++ cs.drop (longest c cs).2 = c :: cs := by
      rw [List.cons_append, List.take_append_drop]
    have hlength : (c :: cs.take (longest c cs).2).length = (longest c cs).2 + 1 := by
      rw [List.length_cons, List.length_take_of_le (longest_le_length c cs)]
    refine .lexeme ⟨hlexeme, ?_, ?_⟩
    · intro kind' text' hbegins hlexeme'
      rw [htext] at hbegins
      have hpos := List.length_pos_iff.mpr hlexeme'.ne_nil
      rw [hlength]
      rcases covers_beginning hbegins hlexeme' with hlt | ⟨heq, -⟩ <;> omega
    · intro kind' hlexeme'
      have hbegins : c :: cs.take (longest c cs).2 <+: c :: cs := ⟨_, htext⟩
      rcases covers_beginning hbegins hlexeme' with hlt | ⟨-, hkind⟩
      · rw [hlength] at hlt
        exact absurd hlt (Nat.lt_irrefl _)
      · exact hkind
  · have hnone : ∀ kind text, text <+: c :: cs → ¬ Lexeme kind text := by
      intro kind text hbegins hlexeme
      have hcovers := covers_beginning hbegins hlexeme
      rw [hunknown] at hcovers
      rcases hcovers with hlt | ⟨-, hkind | ⟨-, hkeyword⟩⟩
      · exact absurd hlt (Nat.not_lt_zero _)
      · exact not_lexeme_unknown (hkind ▸ hlexeme)
      · exact absurd hkeyword (by decide)
    rw [hunknown]
    exact .unknown (by simpa using h) hnone

end Cutting

/-! ## A token does not depend on what is far behind it -/

section Shorter

variable {kind kind' : TokenKind} {text text' rest rest' : List Char}

/-- Of two kinds that one text has, the one that counts is settled. -/
theorem Munch.kind_eq (h : Munch kind text rest) (h' : Munch kind' text rest') : kind = kind' := by
  rcases h'.first kind h.lexeme with heq | ⟨rfl, hkeyword'⟩
  · exact heq
  · rcases h.first kind' h'.lexeme with heq | ⟨rfl, hkeyword⟩
    · exact heq.symm
    · rfl

/-- The token that is cut from a place is settled by the text there. -/
theorem Cut.unique (h : Cut kind text rest) (h' : Cut kind' text' rest')
    (htext : text ++ rest = text' ++ rest') : kind = kind' ∧ text = text' := by
  have hbegins : text <+: text' ++ rest' := ⟨rest, htext⟩
  have hbegins' : text' <+: text ++ rest := ⟨rest', htext.symm⟩
  cases h with
  | lexeme hmunch =>
      cases h' with
      | lexeme hmunch' =>
          have hle := hmunch.longest kind' text' hbegins' hmunch'.lexeme
          have hle' := hmunch'.longest kind text hbegins hmunch.lexeme
          obtain ⟨rfl, -⟩ := List.append_inj htext (Nat.le_antisymm hle' hle)
          exact ⟨hmunch.kind_eq hmunch', rfl⟩
      | unknown _ hnone => exact absurd hmunch.lexeme (hnone _ _ hbegins)
  | unknown _ hnone =>
      cases h' with
      | lexeme hmunch' => exact absurd hmunch'.lexeme (hnone _ _ hbegins')
      | unknown => exact ⟨rfl, (List.append_inj htext rfl).1⟩

/-- Less text behind a token makes no difference to it. -/
theorem Cut.shorten (h : Cut kind text rest) (hrest : rest' <+: rest) :
    Cut kind text rest' := by
  have hbegins : ∀ {beginning}, beginning <+: text ++ rest' → beginning <+: text ++ rest :=
    fun h => h.trans ((List.prefix_append_right_inj text).mpr hrest)
  cases h with
  | lexeme hmunch =>
      exact .lexeme ⟨hmunch.lexeme, fun kind' text' h => hmunch.longest kind' text' (hbegins h),
        hmunch.first⟩
  | unknown hseparator hnone =>
      exact .unknown hseparator fun kind text h => hnone kind text (hbegins h)

/-- A text that was cut is cut again where it stands before less of what followed it. -/
theorem longest_shortened {c : Char} {cs : List Char} (hc : ¬ isSeparator c)
    (h : rest' <+: cs.drop (longest c cs).2) :
    longest c (cs.take (longest c cs).2 ++ rest') = longest c cs := by
  have hcut := (cut_longest hc).shorten h
  have hcut' := @cut_longest c (cs.take (longest c cs).2 ++ rest') hc
  obtain ⟨hkind, htext⟩ := hcut.unique hcut' (by
    rw [List.cons_append, List.cons_append, List.take_append_drop])
  have hlength := congrArg List.length htext
  rw [List.length_cons, List.length_cons, List.length_take_of_le (longest_le_length _ _),
    List.length_take_of_le (longest_le_length _ _)] at hlength
  exact Prod.ext hkind.symm (Nat.succ.inj hlength).symm

end Shorter

end Tabletop.Token
