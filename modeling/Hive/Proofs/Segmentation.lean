import Hive.Proofs.Entries
import Hive.Proofs.Scans

/-!
The tokens of a whole text. They stand in spans of the text, one after the other; what lies between
them are comments and characters that start nothing. Main statement: `Token.lex_segmented`, that
lexing cuts a text up in this way and that there is no other way to do so.
-/

namespace Hive.Lexer

/-- **What lies between tokens**, in front of a rest: characters that start nothing, and comments up
to the ends of their lines. -/
inductive Gap : (gap rest : List Char) → Prop where
  | nil {rest : List Char} : Gap [] rest
  | idle {c : Char} {gap rest : List Char} (hc : isIdle c = true) (more : Gap gap rest) :
    Gap (c :: gap) rest
  | comment {body gap rest : List Char} (hbody : '\n' ∉ body)
    (hend : ∀ c ∈ (gap ++ rest).head?, c = '\n') (more : Gap gap rest) :
    Gap ('#' :: (body ++ gap)) rest

/-- The part of a text from one offset up to another. -/
def slice (text : List Char) (first last : Nat) : List Char :=
  (text.drop first).take (last - first)

def lineAt (text : List Char) (offset : Nat) : Nat := 1 + (text.take offset).count '\n'

/-- A place in a text: the offset of its first character, and the offset after its last one. -/
structure Span where
  first : Nat
  last : Nat

/-- **The token is what stands in the span** of a text. -/
structure Written (text : List Char) (span : Span) (t : Token) : Prop where
  lexeme : t.lexeme = .str (String.ofList (slice text span.first span.last))
  line : t.line = lineAt text span.first
  stands : Stands (slice text span.first span.last) (text.drop span.last) t.kind t.literal

/-- **The tokens of a text** from an offset on, each in its span and with gaps between them. The
last one stands for the end. -/
inductive Segmented (text : List Char) : Nat → List Span → List Token → Prop where
  | done {offset : Nat} (hend : offset ≤ text.length)
    (gap : Gap (slice text offset text.length) []) :
    Segmented text offset [] [.atEnd (lineAt text text.length)]
  | token {offset : Nat} {span : Span} {t : Token} {spans : List Span} {tokens : List Token}
    (hfirst : offset ≤ span.first) (hlast : span.first < span.last)
    (hend : span.last ≤ text.length)
    (gap : Gap (slice text offset span.first) (text.drop span.first))
    (written : Written text span t) (more : Segmented text span.last spans tokens) :
    Segmented text offset (span :: spans) (t :: tokens)

/-! ### Slices and lines -/

section Slices

variable {text : List Char} {first middle last : Nat}

@[simp]
lemma slice_self (text : List Char) (offset : Nat) : slice text offset offset = [] := by
  simp [slice]

lemma slice_of_append (before part rest : List Char) :
    slice (before ++ (part ++ rest)) before.length (before.length + part.length) = part := by
  simp [slice]

lemma slice_append_slice (h : first ≤ middle) (h' : middle ≤ last) :
    slice text first middle ++ slice text middle last = slice text first last := by
  obtain ⟨m, rfl⟩ := Nat.exists_eq_add_of_le h
  obtain ⟨n, rfl⟩ := Nat.exists_eq_add_of_le h'
  simp only [slice, Nat.add_sub_cancel_left]
  rw [Nat.add_assoc, Nat.add_sub_cancel_left, List.take_add, List.drop_drop]

lemma slice_append_drop (h : first ≤ last) :
    slice text first last ++ text.drop last = text.drop first := by
  obtain ⟨n, rfl⟩ := Nat.exists_eq_add_of_le h
  rw [slice, Nat.add_sub_cancel_left, ← List.drop_drop, List.take_append_drop]

lemma slice_to_end (text : List Char) (offset : Nat) :
    slice text offset text.length = text.drop offset := by
  rw [slice, ← List.length_drop, List.take_length]

lemma lineAt_slice (h : first ≤ last) :
    lineAt text first + (slice text first last).count '\n' = lineAt text last := by
  obtain ⟨n, rfl⟩ := Nat.exists_eq_add_of_le h
  simp only [lineAt, slice, Nat.add_sub_cancel_left, List.take_add, List.count_append]
  omega

end Slices

lemma lineAt_le (text : List Char) (offset : Nat) : lineAt text offset ≤ 1 + text.count '\n' :=
  Nat.add_le_add_left ((List.take_sublist offset text).count_le '\n') 1

/-! ### One step of lexing -/

/-- The tokens that a scan on the given line makes, one or none. -/
def Scan.tokens (s : Scan) (line : Nat) : List Token :=
  (s.token.map fun found => ⟨found.1, .str (String.ofList s.written), found.2, line⟩).toList

lemma tokensFrom_step (line : Nat) (c : Char) (cs : List Char) :
    tokensFrom line (c :: cs) = (do
      let s ← scan line c cs
      let more ← tokensFrom (line + s.written.count '\n') s.rest
      return s.tokens line ++ more) := by
  rw [tokensFrom]
  split
  · rename_i hs
    rw [hs]
    rfl
  · rename_i s hs
    have hstep : (scan line c cs >>= fun s => tokensFrom (line + s.written.count '\n') s.rest >>=
        fun more => pure (s.tokens line ++ more)) =
        tokensFrom (line + s.written.count '\n') s.rest >>= fun more =>
          pure (s.tokens line ++ more) := by
      rw [hs]
      rfl
    refine Eq.trans ?_ hstep.symm
    cases tokensFrom (line + s.written.count '\n') s.rest with
    | error f => rfl
    | ok more =>
      cases hfound : s.token with
      | none => simp [Scan.tokens, hfound, bind, Except.bind, pure, Except.pure]
      | some found => simp [Scan.tokens, hfound, bind, Except.bind, pure, Except.pure]

/-- What the first scan of a text and the tokens after it have to do with the tokens of the text. -/
lemma tokensFrom_cons {line : Nat} {c : Char} {cs : List Char} {tokens : List Token}
    (h : tokensFrom line (c :: cs) = .ok tokens) :
    ∃ s more, scan line c cs = .ok s ∧
      tokensFrom (line + s.written.count '\n') s.rest = .ok more ∧
      tokens = (s.token.map fun found =>
        ⟨found.1, .str (String.ofList s.written), found.2, line⟩).toList ++ more := by
  rw [tokensFrom_step] at h
  obtain ⟨s, hs, h⟩ := ok_of_bind h
  obtain ⟨more, hmore, h⟩ := ok_of_bind h
  exact ⟨s, more, hs, hmore, (Except.ok.inj h).symm⟩

/-- A text does not lex if its first scan fails, or else if the rest does not lex. -/
lemma tokensFrom_eq_error {line : Nat} {c : Char} {cs : List Char} {f : Failure}
    (h : tokensFrom line (c :: cs) = .error f) :
    scan line c cs = .error f ∨
      ∃ s, scan line c cs = .ok s ∧ tokensFrom (line + s.written.count '\n') s.rest = .error f := by
  rw [tokensFrom_step] at h
  rcases error_of_bind h with h | ⟨s, hs, h⟩
  · exact .inl h
  rcases error_of_bind h with h | ⟨more, -, h⟩
  · exact .inr ⟨s, hs, h⟩
  · cases h

/-- The last token of a text is that of its end, and what holds of the tokens that scans make holds
of all tokens before it. -/
lemma front_of_tokensFrom {P : Token → Prop}
    (hscan : ∀ {line : Nat} {c : Char} {cs : List Char} {s : Scan} {kind : TokenKind}
      {literal : Json}, scan line c cs = .ok s → s.token = some (kind, literal) →
      P ⟨kind, .str (String.ofList s.written), literal, line⟩)
    {line : Nat} {cs : List Char} {tokens : List Token} (h : tokensFrom line cs = .ok tokens) :
    ∃ front, ∃ last : Nat, tokens = front ++ [.atEnd last] ∧ ∀ t ∈ front, P t := by
  induction hlen : cs.length using Nat.strong_induction_on generalizing line cs tokens with
  | _ n ih =>
  cases cs with
  | nil =>
    rw [tokensFrom] at h
    cases h
    exact ⟨[], line, rfl, by simp⟩
  | cons c cs =>
    obtain ⟨s, more, hs, hmore, rfl⟩ := tokensFrom_cons h
    have hshort := scan_rest_length hs
    obtain ⟨front, last, rfl, hfront⟩ :=
      ih s.rest.length (by simp only [List.length_cons] at hlen; omega) hmore rfl
    refine ⟨_, last, (List.append_assoc _ _ _).symm, List.forall_mem_append.2 ⟨?_, hfront⟩⟩
    intro t ht
    obtain ⟨⟨kind, literal⟩, hfound, rfl⟩ := Option.map_eq_some_iff.1 (Option.mem_toList.1 ht)
    exact hscan hs hfound

/-- What holds of the tokens that scans make, and of those for an end, holds of all tokens of a
text. -/
lemma forall_tokensFrom {P : Token → Prop} (hend : ∀ line : Nat, P (.atEnd line))
    (hscan : ∀ {line : Nat} {c : Char} {cs : List Char} {s : Scan} {kind : TokenKind}
      {literal : Json}, scan line c cs = .ok s → s.token = some (kind, literal) →
      P ⟨kind, .str (String.ofList s.written), literal, line⟩)
    {line : Nat} {cs : List Char} {tokens : List Token} (h : tokensFrom line cs = .ok tokens) :
    ∀ t ∈ tokens, P t := by
  obtain ⟨front, last, rfl, hfront⟩ := front_of_tokensFrom hscan h
  exact List.forall_mem_append.2 ⟨hfront, by simpa using hend last⟩

lemma tokensFrom_skip {line : Nat} {c : Char} {cs written rest : List Char}
    (h : scan line c cs = .ok ⟨written, none, rest⟩) :
    tokensFrom line (c :: cs) = tokensFrom (line + written.count '\n') rest := by
  rw [tokensFrom_step, h]
  exact bind_pure (tokensFrom (line + written.count '\n') rest)

lemma tokensFrom_gap {gap rest : List Char} (h : Gap gap rest) (line : Nat) :
    tokensFrom line (gap ++ rest) = tokensFrom (line + gap.count '\n') rest := by
  induction h generalizing line with
  | nil => simp
  | @idle c gap rest hc more ih =>
    rw [List.cons_append, tokensFrom_skip (scan_idle hc), ih, ← List.singleton_append (l := gap),
      List.count_append, Nat.add_assoc]
  | @comment body gap rest hbody hend more ih =>
    have hscan : scan line '#' (body ++ (gap ++ rest)) = .ok ⟨'#' :: body, none, gap ++ rest⟩ :=
      scan_comment hbody hend
    rw [List.cons_append, List.append_assoc, tokensFrom_skip hscan, ih, ← List.cons_append,
      List.count_append, Nat.add_assoc]

/-! ### Lexing cuts a text up -/

/-- What is read before a gap and makes no token belongs to the gap. -/
lemma Gap.prepend {written gap rest : List Char} (hread : Reads ⟨written, none, gap ++ rest⟩)
    (h : Gap gap rest) : Gap (written ++ gap) rest := by
  generalize hs : (⟨written, none, gap ++ rest⟩ : Scan) = s at hread
  cases hread with
  | token => cases hs
  | comment hbody hrest =>
    cases hs
    exact .comment hbody hrest h
  | idle hc =>
    cases hs
    exact .idle hc h

/-- What is read before the first gap and makes no token belongs to that gap. -/
lemma Segmented.widen {text : List Char} {first offset : Nat} {spans : List Span}
    {tokens : List Token} (h : Segmented text offset spans tokens) (hle : first ≤ offset)
    (hread : Reads ⟨slice text first offset, none, text.drop offset⟩) :
    Segmented text first spans tokens := by
  cases h with
  | done hend gap =>
    refine .done (Nat.le_trans hle hend) ?_
    rw [← slice_append_slice hle hend]
    refine gap.prepend ?_
    rwa [List.append_nil, slice_to_end]
  | token hfirst hlast hend gap written more =>
    refine .token (Nat.le_trans hle hfirst) hlast hend ?_ written more
    rw [← slice_append_slice hle hfirst]
    refine gap.prepend ?_
    rwa [slice_append_drop hfirst]

/-- The tokens that are lexed from a place on are those of the text from there on. -/
theorem segmented_of_tokensFrom {line : Nat} {before cs : List Char} {tokens : List Token}
    (hline : line = 1 + before.count '\n') (h : tokensFrom line cs = .ok tokens) :
    ∃ spans, Segmented (before ++ cs) before.length spans tokens := by
  -- the text that has been read is carried along, since offsets and lines count from its start
  induction hlen : cs.length using Nat.strong_induction_on generalizing line before cs tokens with
  | _ n ih =>
  cases cs with
  | nil =>
    rw [tokensFrom] at h
    cases h
    have hgap : Gap (slice before before.length before.length) [] := by
      rw [slice_self]
      exact .nil
    have hdone := Segmented.done (Nat.le_refl before.length) hgap
    rw [lineAt, List.take_length, ← hline] at hdone
    rw [List.append_nil]
    exact ⟨[], hdone⟩
  | cons c cs =>
    obtain ⟨s, more, hs, hmore, rfl⟩ := tokensFrom_cons h
    have happ := scan_append hs
    have hshort := scan_rest_length hs
    have hread := reads_of_scan hs
    have hnext : line + s.written.count '\n' = 1 + (before ++ s.written).count '\n' := by
      rw [List.count_append, hline]
      omega
    have hspans := ih s.rest.length (by simp only [List.length_cons] at hlen; omega) hnext hmore rfl
    rw [List.append_assoc, happ, List.length_append] at hspans
    obtain ⟨spans, hspans⟩ := hspans
    have hslice := slice_of_append before s.written s.rest
    have hdrop : (before ++ (c :: cs)).drop (before.length + s.written.length) = s.rest := by
      rw [← happ, ← List.append_assoc, ← List.length_append, List.drop_left]
    have htake : (before ++ (c :: cs)).take before.length = before := List.take_left
    rw [happ] at hslice
    cases hfound : s.token with
    | none =>
      -- nothing was found, so what was read goes to the gap before the next token
      refine ⟨spans, hspans.widen (Nat.le_add_right _ _) ?_⟩
      rw [hslice, hdrop, ← hfound]
      exact hread
    | some found =>
      have hpos := List.length_pos_iff.2 (scan_written_ne_nil hs)
      have hle : before.length + s.written.length ≤ (before ++ (c :: cs)).length := by
        rw [← happ]
        simp
      refine ⟨⟨before.length, before.length + s.written.length⟩ :: spans,
        .token (Nat.le_refl _) (by simp only; omega) hle (by rw [slice_self]; exact .nil)
          ⟨?_, ?_, ?_⟩ hspans⟩
      · rw [hslice]
      · simp [lineAt, htake, hline]
      · rw [hslice, hdrop]
        obtain ⟨written, token, rest⟩ := s
        cases hfound
        cases hread with
        | token hstands => exact hstands

lemma ends_of_segmented {text : List Char} {offset : Nat} {spans : List Span} {tokens : List Token}
    (h : Segmented text offset spans tokens) : ∃ ts l, tokens = ts ++ [.atEnd l] := by
  induction h with
  | done => exact ⟨[], _, rfl⟩
  | @token offset span t spans tokens _ _ _ _ _ _ ih =>
    obtain ⟨ts, l, rfl⟩ := ih
    exact ⟨t :: ts, l, rfl⟩

/-- Each token of a text stands in some span of it, or for its end. -/
lemma written_of_segmented {text : List Char} {offset : Nat} {spans : List Span}
    {tokens : List Token} (h : Segmented text offset spans tokens) :
    ∀ t ∈ tokens, (∃ span, Written text span t) ∨ t = .atEnd (lineAt text text.length) := by
  induction h with
  | done => exact fun t ht => .inr (List.mem_singleton.1 ht)
  | token _ _ _ _ written _ ih =>
    exact List.forall_mem_cons.2 ⟨.inl ⟨_, written⟩, ih⟩

/-! ### There is only one way -/

theorem tokens_of_segmented {text : List Char} {offset : Nat} {spans : List Span}
    {tokens others : List Token} (h : Segmented text offset spans others)
    (hlex : tokensFrom (lineAt text offset) (text.drop offset) = .ok tokens) : others = tokens := by
  induction h generalizing tokens with
  | @done offset hend gap =>
    rw [slice_to_end] at gap
    have hgap := tokensFrom_gap gap (lineAt text offset)
    rw [List.append_nil, hlex, ← slice_to_end, lineAt_slice hend, tokensFrom] at hgap
    exact (Except.ok.inj hgap).symm
  | @token offset span t spans others hfirst hlast hend gap written more ih =>
    have hgap := tokensFrom_gap gap (lineAt text offset)
    rw [slice_append_drop hfirst, hlex, lineAt_slice hfirst] at hgap
    have happ : slice text span.first span.last ++ text.drop span.last = text.drop span.first :=
      slice_append_drop (Nat.le_of_lt hlast)
    cases hcs : text.drop span.first with
    | nil =>
      have := List.drop_eq_nil_iff.1 hcs
      omega
    | cons c cs =>
      rw [hcs] at hgap happ
      obtain ⟨s, rest, hs, hrest, rfl⟩ := tokensFrom_cons hgap.symm
      -- only one token stands at the start of the span, so the scan has found it
      obtain rfl := scan_of_stands written.stands happ.symm hs
      rw [lineAt_slice (Nat.le_of_lt hlast)] at hrest
      obtain ⟨kind, lexeme, literal, line⟩ := t
      obtain ⟨rfl, rfl, -⟩ := written
      rw [ih hrest]
      rfl

end Hive.Lexer

namespace Hive

open Lexer

lemma Token.ends_lex {source : String} {tokens : List Token} (h : lex source = .ok tokens) :
    ∃ ts l, tokens = ts ++ [.atEnd l] := by
  have hstart : 1 = 1 + ([] : List Char).count '\n' := rfl
  obtain ⟨spans, hspans⟩ := segmented_of_tokensFrom hstart h
  exact ends_of_segmented hspans

/-- **Lexing cuts a text up into its tokens**, and there is no other way to do so: the tokens of a
text that lexes, and only they, stand in spans of it one after the other. -/
theorem Token.lex_segmented {source : String} {tokens : List Token} (h : lex source = .ok tokens)
    (others : List Token) :
    (∃ spans, Segmented source.toList 0 spans others) ↔ others = tokens := by
  constructor
  · rintro ⟨spans, hspans⟩
    exact tokens_of_segmented hspans h
  · rintro rfl
    have hstart : 1 = 1 + ([] : List Char).count '\n' := rfl
    exact segmented_of_tokensFrom hstart h

/-- A text in which a string goes over two lines and holds a quote, a comment holds another, and a
number has two dots. -/
def crookedSource : String := "s=\x22a\\\x22\n\x22 # \x22\n12.5.7!"

theorem Token.lex_segmented_crooked :
    ∃ tokens spans, lex crookedSource = .ok tokens ∧ tokens.map Token.line = [1, 1, 1, 3, 3, 3] ∧
      Segmented crookedSource.toList 0 spans tokens := by
  have hlines : (lex crookedSource).toOption.map (List.map Token.line) =
      some [1, 1, 1, 3, 3, 3] := by decide +kernel
  cases hlex : lex crookedSource with
  | ok tokens =>
    rw [hlex] at hlines
    obtain ⟨spans, hspans⟩ := (lex_segmented hlex tokens).2 rfl
    exact ⟨tokens, spans, rfl, Option.some.inj hlines, hspans⟩
  | error f =>
    rw [hlex] at hlines
    cases hlines

end Hive
