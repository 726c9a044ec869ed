/-
# The tokens of an input lie side by side

The tokens of an input are pieces of it, one behind the other, with nothing but white space around
them. Each of them is the longest that begins at its place. So an input can be cut off before a
token or behind it, and the tokens up to there stay what they are.
-/

import Tabletop.Proofs.Token.Lexeme

namespace Tabletop.Token

/-! ## One token after another -/

/-- The token that is cut from a place where `c` stands and then `cs`. -/
def cutAt (position : Nat) (spaced : Bool) (c : Char) (cs : List Char) : Token where
  kind := (longest c cs).1
  text := String.ofList (c :: cs.take (longest c cs).2)
  spaced := spaced
  start := position

/-- What stands behind the token that is cut from a place. -/
def behind (c : Char) (cs : List Char) : List Char :=
  cs.drop (longest c cs).2

section Cutting

variable {position : Nat} {spaced : Bool} {c : Char} {cs : List Char}

theorem scanFrom_separator (hc : isSeparator c) :
    scanFrom position spaced (c :: cs) = scanFrom (position + c.utf8Size) true cs := by
  rw [scanFrom, if_pos hc]

theorem scanFrom_token (hc : ¬ isSeparator c) :
    scanFrom position spaced (c :: cs) =
      cutAt position spaced c cs ::
        scanFrom (cutAt position spaced c cs).stop false (behind c cs) := by
  rw [scanFrom, if_neg hc]
  rfl

/-- What holds where nothing is left holds everywhere, if it holds before a separator and before a
token whenever it holds behind them. -/
theorem scanFrom_induction {motive : Nat → Bool → List Char → Prop}
    (nil : ∀ position spaced, motive position spaced [])
    (separator : ∀ position spaced c cs, isSeparator c → motive (position + c.utf8Size) true cs →
      motive position spaced (c :: cs))
    (token : ∀ position spaced c cs, ¬ isSeparator c →
      motive (cutAt position spaced c cs).stop false (behind c cs) →
      motive position spaced (c :: cs))
    (position : Nat) (spaced : Bool) (cs : List Char) : motive position spaced cs := by
  induction hlength : cs.length using Nat.strongRecOn generalizing position spaced cs with
  | ind n ih =>
      cases cs with
      | nil => exact nil position spaced
      | cons c cs =>
          rw [List.length_cons] at hlength
          by_cases hc : isSeparator c
          · exact separator _ _ _ _ hc (ih cs.length (by omega) _ _ _ rfl)
          · have hshorter : (behind c cs).length ≤ cs.length := by simp [behind]
            exact token _ _ _ _ hc (ih (behind c cs).length (by omega) _ _ _ rfl)

theorem cutAt_append_behind (position : Nat) (spaced : Bool) (c : Char) (cs : List Char) :
    (cutAt position spaced c cs).text.toList ++ behind c cs = c :: cs := by
  simp [cutAt, behind]

theorem cut_cutAt (hc : ¬ isSeparator c) :
    Cut (cutAt position spaced c cs).kind (cutAt position spaced c cs).text.toList
      (behind c cs) := by
  simpa [cutAt, behind] using cut_longest hc

/-- The same token is cut where less of what follows it is there. -/
theorem scanFrom_cutAt (position : Nat) (spaced : Bool) {rest : List Char} (hc : ¬ isSeparator c)
    (h : rest <+: behind c cs) :
    scanFrom position spaced ((cutAt position spaced c cs).text.toList ++ rest) =
      cutAt position spaced c cs :: scanFrom (cutAt position spaced c cs).stop false rest := by
  have htake : (cs.take (longest c cs).2).length = (longest c cs).2 :=
    List.length_take_of_le (longest_le_length c cs)
  have hlongest := longest_shortened hc h
  have htext : (cutAt position spaced c cs).text.toList ++ rest =
      c :: (cs.take (longest c cs).2 ++ rest) := by simp [cutAt]
  have hcut : cutAt position spaced c (cs.take (longest c cs).2 ++ rest) =
      cutAt position spaced c cs := by
    simp only [cutAt, hlongest, List.take_left' htake]
  rw [htext, scanFrom_token hc, hcut, behind, hlongest, List.drop_left' htake]

end Cutting

/-! ## Around one token -/

/-- In a text that begins at byte `position`, the token `t` stands between `before` and `after`.
The tokens before it are `pre`, and those behind it are `post`. -/
structure Stands (position : Nat) (spaced : Bool) (cs : List Char) (pre : List Token) (t : Token)
    (post : List Token) (before after : String) : Prop where
  text : cs = before.toList ++ (t.text.toList ++ after.toList)
  start : t.start = position + before.utf8ByteSize
  cut : Cut t.kind t.text.toList after.toList
  left : scanFrom position spaced before.toList = pre
  through : scanFrom position spaced (before.toList ++ t.text.toList) = pre ++ [t]
  right : scanFrom t.stop false after.toList = post

namespace Stands

variable {position : Nat} {spaced : Bool} {c : Char} {cs : List Char} {pre post : List Token}
  {t : Token} {before after : String}

theorem separator (hc : isSeparator c)
    (h : Stands (position + c.utf8Size) true cs pre t post before after) :
    Stands position spaced (c :: cs) pre t post (String.singleton c ++ before) after where
  text := by simp [h.text]
  start := by simp [h.start, Nat.add_assoc]
  cut := h.cut
  left := by simpa [scanFrom_separator hc] using h.left
  through := by simpa [scanFrom_separator hc] using h.through
  right := h.right

/-- The first token stands at the beginning. -/
theorem first (hc : ¬ isSeparator c) :
    Stands position spaced (c :: cs) [] (cutAt position spaced c cs)
      (scanFrom (cutAt position spaced c cs).stop false (behind c cs))
      "" (String.ofList (behind c cs)) where
  text := by simp [cutAt_append_behind]
  start := by simp [cutAt]
  cut := by simpa using cut_cutAt hc
  left := by simp [scanFrom]
  through := by simpa [scanFrom] using scanFrom_cutAt position spaced hc List.nil_prefix
  right := by simp

/-- The later tokens stand behind the first one. -/
theorem later (hc : ¬ isSeparator c)
    (h : Stands (cutAt position spaced c cs).stop false (behind c cs) pre t post before after) :
    Stands position spaced (c :: cs) (cutAt position spaced c cs :: pre) t post
      ((cutAt position spaced c cs).text ++ before) after where
  text := by rw [← cutAt_append_behind position spaced c cs, h.text]; simp
  start := by simp [h.start, stop, cutAt, Nat.add_assoc]
  cut := h.cut
  left := by
    have hbefore : before.toList <+: behind c cs := ⟨_, h.text.symm⟩
    simpa [h.left] using scanFrom_cutAt position spaced hc hbefore
  through := by
    have hthrough : before.toList ++ t.text.toList <+: behind c cs :=
      ⟨after.toList, by simp [h.text]⟩
    simpa [h.through] using scanFrom_cutAt position spaced hc hthrough
  right := h.right

end Stands

/-- Each token stands between the tokens before it and those behind it. -/
theorem exists_stands {position : Nat} {spaced : Bool} {cs : List Char} {pre post : List Token}
    {t : Token} (h : scanFrom position spaced cs = pre ++ t :: post) :
    ∃ before after, Stands position spaced cs pre t post before after := by
  induction position, spaced, cs using scanFrom_induction generalizing pre with
  | nil position spaced => simp [scanFrom] at h
  | separator position spaced c cs hc ih =>
      rw [scanFrom_separator hc] at h
      obtain ⟨before, after, hstands⟩ := ih h
      exact ⟨_, _, hstands.separator hc⟩
  | token position spaced c cs hc ih =>
      rw [scanFrom_token hc] at h
      cases pre with
      | nil =>
          obtain ⟨rfl, rfl⟩ := List.cons.inj h
          exact ⟨_, _, .first hc⟩
      | cons first pre =>
          obtain ⟨rfl, hrest⟩ := List.cons.inj h
          obtain ⟨before, after, hstands⟩ := ih hrest
          exact ⟨_, _, hstands.later hc⟩

/-- The first token has white space before it, or it stands at the beginning. -/
theorem first_of_scanFrom {position : Nat} {spaced : Bool} {cs : List Char} {t : Token}
    {post : List Token} (h : scanFrom position spaced cs = t :: post) :
    t.spaced = true ∨ t.spaced = spaced ∧ t.start = position := by
  induction position, spaced, cs using scanFrom_induction with
  | nil position spaced => simp [scanFrom] at h
  | separator position spaced c cs hc ih =>
      rw [scanFrom_separator hc] at h
      rcases ih h with hspaced | ⟨hspaced, -⟩
      · exact .inl hspaced
      · exact .inl hspaced
  | token position spaced c cs hc ih =>
      rw [scanFrom_token hc] at h
      obtain ⟨rfl, -⟩ := List.cons.inj h
      exact .inr ⟨rfl, rfl⟩

/-- Two beginnings of a text are the same if they have the same number of bytes. -/
theorem eq_of_utf8ByteSize {a b : String} {rest rest' : List Char}
    (h : a.toList ++ rest = b.toList ++ rest') (hsize : a.utf8ByteSize = b.utf8ByteSize) :
    a = b := by
  have hlonger {a b : String} {more : List Char} (hmore : b.toList = a.toList ++ more)
      (hsize : a.utf8ByteSize = b.utf8ByteSize) : a = b := by
    obtain rfl : b = a ++ String.ofList more := by simp [← String.toList_inj, hmore]
    have hnone : String.ofList more = "" := by
      rw [← String.utf8ByteSize_eq_zero_iff]
      rw [String.utf8ByteSize_append] at hsize
      omega
    rw [hnone, String.append_empty]
  rcases List.append_eq_append_iff.mp h with ⟨more, hmore, -⟩ | ⟨more, hmore, -⟩
  · exact hlonger hmore hsize
  · exact (hlonger hmore hsize.symm).symm

/-- A token with no white space before it stands directly behind the token before it. -/
theorem exists_stands_touching {position : Nat} {spaced : Bool} {cs : List Char}
    {pre post : List Token} {u t : Token} (h : scanFrom position spaced cs = pre ++ u :: t :: post)
    (ht : t.spaced = false) :
    ∃ before after, Stands position spaced cs (pre ++ [u]) t post (before ++ u.text) after ∧
      Cut u.kind u.text.toList (t.text.toList ++ after.toList) := by
  obtain ⟨first, behindFirst, hfirst⟩ := exists_stands h
  have hsplit : scanFrom position spaced cs = (pre ++ [u]) ++ t :: post := by simp [h]
  obtain ⟨before, after, hstands⟩ := exists_stands hsplit
  have hstart : t.start = u.stop := by
    rcases first_of_scanFrom hfirst.right with hspaced | ⟨-, hstart⟩
    · simp [ht] at hspaced
    · exact hstart
  rw [hstands.start, stop, hfirst.start] at hstart
  have htext := hfirst.text.symm.trans hstands.text
  have hbeginnings : before.toList ++ (t.text.toList ++ after.toList) =
      (first ++ u.text).toList ++ behindFirst.toList := by simpa using htext.symm
  -- Both beginnings end where `t` begins.
  obtain rfl : before = first ++ u.text := by
    apply eq_of_utf8ByteSize hbeginnings
    rw [String.utf8ByteSize_append]
    omega
  refine ⟨first, after, hstands, ?_⟩
  have hbehind : behindFirst.toList = t.text.toList ++ after.toList := by simpa using htext
  exact hbehind ▸ hfirst.cut

/-- A minus sign is written in one way. -/
theorem text_of_minus {text rest : List Char} (h : Cut .minus text rest) : text = ['-'] := by
  cases h with
  | lexeme hmunch =>
      cases hmunch.lexeme with
      | keyword hmem => simp [keywords] at hmem
      | opener hmem => simp [openers] at hmem
      | mark hmem => simpa [marks] using hmem

/-! ## All tokens -/

/-- Every token ends before the next one begins. -/
theorem pairwise_scanFrom (position : Nat) (spaced : Bool) (cs : List Char) :
    (scanFrom position spaced cs).Pairwise fun t t' => t.stop ≤ t'.start := by
  induction position, spaced, cs using scanFrom_induction with
  | nil position spaced => simp [scanFrom]
  | separator position spaced c cs hc ih => rwa [scanFrom_separator hc]
  | token position spaced c cs hc ih =>
      rw [scanFrom_token hc]
      exact .cons (fun t => le_start_of_mem_scanFrom) ih

/-- A character that is no separator lies in a token. -/
theorem exists_token_around (position : Nat) (spaced : Bool) {cs after : List Char}
    (before : String) {c : Char} (hc : ¬ isSeparator c) (h : cs = before.toList ++ c :: after) :
    ∃ t ∈ scanFrom position spaced cs, t.start ≤ position + before.utf8ByteSize ∧
      position + before.utf8ByteSize + c.utf8Size ≤ t.stop := by
  induction position, spaced, cs using scanFrom_induction generalizing before with
  | nil position spaced => simp at h
  | separator position spaced d cs hd ih =>
      rw [scanFrom_separator hd]
      rcases List.cons_eq_append_iff.mp h with ⟨-, heq⟩ | ⟨more, hbefore, hcs⟩
      · obtain ⟨rfl, -⟩ := List.cons.inj heq
        exact absurd hd hc
      · obtain rfl : before = String.singleton d ++ String.ofList more := by
          simp [← String.toList_inj, hbefore]
        simpa [Nat.add_assoc] using ih (String.ofList more) (by simpa using hcs)
  | token position spaced d cs hd ih =>
      rw [scanFrom_token hd]
      rw [← cutAt_append_behind position spaced d cs] at h
      have hsplit : (∃ more, before.toList = (cutAt position spaced d cs).text.toList ++ more ∧
            behind d cs = more ++ c :: after) ∨
          ∃ more, (cutAt position spaced d cs).text.toList = before.toList ++ c :: more := by
        rcases List.append_eq_append_iff.mp h with hbehind | ⟨_ | ⟨first, more⟩, htext, hmore⟩
        · exact .inl hbehind
        · exact .inl ⟨[], by simpa using htext.symm, by simpa using hmore.symm⟩
        · obtain ⟨rfl, -⟩ := List.cons.inj hmore
          exact .inr ⟨more, htext⟩
      rcases hsplit with ⟨more, hbefore, hbehind⟩ | ⟨more, htext⟩
      · obtain rfl : before = (cutAt position spaced d cs).text ++ String.ofList more := by
          simp [← String.toList_inj, hbefore]
        obtain ⟨t, ht, hstart, hstop⟩ := ih (String.ofList more) (by simpa using hbehind)
        refine ⟨t, List.mem_cons_of_mem _ ht, ?_, ?_⟩
        · simpa [stop, cutAt, Nat.add_assoc] using hstart
        · simpa [stop, cutAt, Nat.add_assoc] using hstop
      · have hsize : (cutAt position spaced d cs).text =
            before ++ String.singleton c ++ String.ofList more := by
          simp [← String.toList_inj, htext]
        refine ⟨_, List.mem_cons_self, Nat.le_add_right position _, ?_⟩
        simp only [stop, hsize, String.utf8ByteSize_append, String.utf8ByteSize_singleton]
        simp only [cutAt]
        omega

/-- The tokens `ts` are cut from an input one after another, and leave out nothing but white
space. -/
structure Tiling (input : String) (ts : List Token) : Prop where
  /-- Every token is a piece of the input, cut from the place where it says that it begins. -/
  cut : ∀ t ∈ ts, ∃ before after, input = before ++ t.text ++ after ∧
    t.start = before.utf8ByteSize ∧ Cut t.kind t.text.toList after.toList
  nonempty : ∀ t ∈ ts, t.start < t.stop
  ordered : ts.Pairwise fun t t' => t.stop ≤ t'.start
  /-- A character lies in a token from its first byte to its last, or it is white space. -/
  covered : ∀ before c after, input = before ++ String.singleton c ++ after →
    isSeparator c ∨ ∃ t ∈ ts, t.start ≤ before.utf8ByteSize ∧
      before.utf8ByteSize + c.utf8Size ≤ t.stop

theorem Cut.ne_nil {kind : TokenKind} {text rest : List Char} (h : Cut kind text rest) :
    text ≠ [] := by
  cases h with
  | lexeme hmunch => exact hmunch.lexeme.ne_nil
  | unknown => exact List.cons_ne_nil _ _

/-- The tokens of an input lie side by side in it, in order and without overlap. Each one is the
longest text at its place that belongs to a class, or a single character where nothing does. What
they leave out is white space. -/
theorem scan_tiling (input : String) : Tiling input (scan input) where
  cut t ht := by
    obtain ⟨pre, post, hscan⟩ := List.append_of_mem ht
    obtain ⟨before, after, hstands⟩ := exists_stands hscan
    refine ⟨before, after, ?_, by simpa using hstands.start, hstands.cut⟩
    simp [← String.toList_inj, hstands.text]
  nonempty t ht := by
    obtain ⟨pre, post, hscan⟩ := List.append_of_mem ht
    obtain ⟨before, after, hstands⟩ := exists_stands hscan
    have hne := hstands.cut.ne_nil
    have hpos : t.text.utf8ByteSize ≠ 0 := by simpa using hne
    unfold stop
    omega
  ordered := pairwise_scanFrom 0 true input.toList
  covered before c after h := by
    by_cases hc : isSeparator c
    · exact .inl hc
    · have htext : input.toList = before.toList ++ c :: after.toList := by simp [h]
      have haround := exists_token_around 0 true before hc htext
      rw [Nat.zero_add] at haround
      exact .inr haround

end Tabletop.Token
