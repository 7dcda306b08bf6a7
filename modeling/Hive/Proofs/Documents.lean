import Hive.Json.Show
import Hive.Proofs.Entries
import Hive.Proofs.Numerals
import Mathlib.Data.List.Forall2
import Mathlib.Tactic.IntervalCases

/-!
Written data read back. A text is read back character by character, and a list or an object part by
part, whatever the style in which it is broken into lines. The names of the fields of an object have
to differ, since of several fields of one name only the last is kept.
-/

namespace Hive.Json

namespace Reader

/-! ### Texts -/

lemma hexUnit?_hexDigits {n : Nat} (hn : n < 0x20) (c : Char) (cs : List Char) :
    hexUnit? (Text.hexDigits 4 n ++ c :: cs) = some (n, c :: cs) := by
  interval_cases n <;> rfl

section TextBody

variable {start more s rest : List Char} {budget : Nat}

lemma textBody_quote : textBody start (budget + 1) ('\x22' :: rest) = .ok ([], rest) := by
  rw [textBody.eq_def]
  rfl

lemma textBody_plain {c : Char} (hquote : c ≠ '\x22') (hslash : c ≠ '\\') (hc : ¬c.toNat < 0x20)
    (h : textBody start budget more = .ok (s, rest)) :
    textBody start (budget + 1) (c :: more) = .ok (c :: s, rest) := by
  rw [textBody.eq_def]
  split
  · contradiction
  · contradiction
  · rename_i hcs _
    exact absurd (List.cons.inj hcs).1 hslash
  · rename_i hbudget hcs
    cases hbudget
    cases hcs
    rw [if_neg (by simpa using hquote), if_neg (by simpa using hslash), if_neg hc, h]
    rfl

lemma textBody_short {c e : Char} (hc : shortEscape? e = some c)
    (h : textBody start budget more = .ok (s, rest)) :
    textBody start (budget + 1) ('\\' :: e :: more) = .ok (c :: s, rest) := by
  have hu : e ≠ 'u' := by
    rintro rfl
    cases hc
  rw [textBody]
  · simp only [beq_iff_eq, Char.reduceEq, if_false, if_true]
    rw [hc]
    dsimp only
    rw [h]
    rfl
  · simpa using hu
  · simp

lemma textBody_unit {n : Nat} {digits : List Char} (hn : n < 0x20)
    (hdigits : hexUnit? digits = some (n, more))
    (h : textBody start budget more = .ok (s, rest)) :
    textBody start (budget + 1) ('\\' :: 'u' :: digits) = .ok (Char.ofNat n :: s, rest) := by
  rw [textBody]
  · simp only [beq_iff_eq, Char.reduceEq, if_false, if_true]
    rw [hdigits]
    dsimp only
    rw [if_neg (by omega), h]
    simp only [ofUnit]
    rw [if_neg (by omega)]
    rfl
  · simp

/-- The written forms of a character: a short escape, its code, or itself. -/
lemma escape_cases (c : Char) :
    (∃ e, escape c = ['\\', e] ∧ shortEscape? e = some c) ∨
      c.toNat < 0x20 ∧ escape c = '\\' :: 'u' :: Text.hexDigits 4 c.toNat ∨
      escape c = [c] ∧ c ≠ '\x22' ∧ c ≠ '\\' ∧ ¬c.toNat < 0x20 := by
  unfold escape
  split
  · rename_i hc
    exact .inl ⟨c, rfl, by simp [shortEscape?, hc]⟩
  rename_i hmark
  rw [Bool.or_eq_true, beq_iff_eq, beq_iff_eq, not_or] at hmark
  split
  · rename_i hc
    exact .inl ⟨'n', rfl, by rw [eq_of_beq hc]; rfl⟩
  split
  · rename_i hc
    exact .inl ⟨'r', rfl, by rw [eq_of_beq hc]; rfl⟩
  split
  · rename_i hc
    exact .inl ⟨'t', rfl, by rw [eq_of_beq hc]; rfl⟩
  split
  · rename_i hc
    exact .inl ⟨'b', rfl, by rw [eq_of_beq hc]; rfl⟩
  split
  · rename_i hc
    exact .inl ⟨'f', rfl, by rw [eq_of_beq hc]; rfl⟩
  split
  · rename_i hc
    exact .inr (.inl ⟨hc, rfl⟩)
  · rename_i hc
    exact .inr (.inr ⟨rfl, hmark.1, hmark.2, hc⟩)

lemma unbroken_escape (c : Char) : '\r' ∉ escape c := by
  rcases escape_cases c with ⟨e, he, hshort⟩ | ⟨hc, he⟩ | ⟨he, -, -, hc⟩
  · rw [he]
    simp only [List.mem_cons, List.not_mem_nil, Char.reduceEq, false_or, or_false]
    rintro rfl
    cases hshort
  · rw [he]
    generalize c.toNat = n at hc
    interval_cases n <;> decide
  · rw [he, List.mem_singleton]
    rintro rfl
    exact hc (by decide)

lemma length_le_escaped (cs : List Char) : cs.length ≤ (cs.flatMap escape).length := by
  induction cs with
  | nil => exact Nat.zero_le _
  | cons c cs ih =>
    have hpos : 0 < (escape c).length := by
      rcases escape_cases c with ⟨e, he, -⟩ | ⟨-, he⟩ | ⟨he, -⟩ <;> simp [he]
    rw [List.flatMap_cons, List.length_append, List.length_cons]
    omega

lemma textBody_escape (c : Char) (hmore : more ≠ [])
    (h : textBody start budget more = .ok (s, rest)) :
    textBody start (budget + 1) (escape c ++ more) = .ok (c :: s, rest) := by
  rcases escape_cases c with ⟨e, he, hshort⟩ | ⟨hc, he⟩ | ⟨he, hquote, hslash, hc⟩
  · rw [he]
    exact textBody_short hshort h
  · obtain ⟨d, more, rfl⟩ := List.exists_cons_of_ne_nil hmore
    have hunit := textBody_unit hc (hexUnit?_hexDigits hc d more) h
    rw [Char.ofNat_toNat] at hunit
    rw [he]
    exact hunit
  · rw [he]
    exact textBody_plain hquote hslash hc h

lemma textBody_escaped (start cs rest : List Char) (budget : Nat) (h : cs.length < budget) :
    textBody start budget (cs.flatMap escape ++ '\x22' :: rest) = .ok (cs, rest) := by
  induction cs generalizing budget with
  | nil =>
    obtain ⟨budget, rfl⟩ := Nat.exists_eq_succ_of_ne_zero (Nat.ne_of_gt h)
    exact textBody_quote
  | cons c cs ih =>
    obtain ⟨budget, rfl⟩ := Nat.exists_eq_succ_of_ne_zero (Nat.ne_of_gt (Nat.zero_lt_of_lt h))
    rw [List.flatMap_cons, List.append_assoc]
    exact textBody_escape c (by simp) (ih budget (Nat.lt_of_succ_lt_succ h))

end TextBody

/-- **A written text is read back.** -/
lemma text_writeText (start : List Char) (s : String) (rest : List Char) :
    text start (s.toList.flatMap escape ++ '\x22' :: rest) = .ok (s, rest) := by
  have hlength := length_le_escaped s.toList
  have hbudget : s.toList.length < (s.toList.flatMap escape ++ '\x22' :: rest).length + 1 := by
    rw [List.length_append]
    omega
  unfold text
  rw [textBody_escaped start s.toList rest _ hbudget]
  exact congrArg (fun name => Except.ok (name, rest)) String.ofList_toList

/-! ### Parts -/

/-- The characters that stand between data. -/
def isBlank (c : Char) : Bool := c == ' ' || c == '\t' || c == '\n' || c == '\r'

/-- The characters with which no datum starts. -/
def outer : List Char := [' ', '\t', '\n', '\r', ']', '\x7d', '\uFEFF']

lemma isBlank_of_not_mem_outer {c : Char} (h : c ∉ outer) : isBlank c = false := by
  simp [outer] at h
  simp [isBlank, h]

lemma skipBlanks_append {blanks cs : List Char} {c : Char} (hblanks : ∀ b ∈ blanks, isBlank b = true)
    (hc : isBlank c = false) : skipBlanks (blanks ++ c :: cs) = c :: cs :=
  Lexer.dropWhile_run hblanks fun _ hd => Option.some.inj hd ▸ hc

lemma skipBlanks_cons {c : Char} {cs : List Char} (hc : isBlank c = false) :
    skipBlanks (c :: cs) = c :: cs :=
  skipBlanks_append (List.forall_mem_nil _) hc

/-- How a part is read off the front of a text: what it stands for, and what comes after it. -/
abbrev Taking (α : Type) := List Char → α → List Char → Prop

/-- An element of a list is read by a reader of data. -/
def takesElement (value : Reads Json) : Taking Json := fun cs x more => value cs = .ok (x, more)

/-- A field is read as its name, a colon and its datum. -/
inductive TakesField (value : Reads Json) : Taking (String × Json) where
  | mk {body afterName afterColon more : List Char} {name : String} {x : Json}
      (hname : text ('\x22' :: body) body = .ok (name, afterName))
      (hcolon : skipBlanks afterName = ':' :: afterColon)
      (hx : value (skipBlanks afterColon) = .ok (x, more)) :
      TakesField value ('\x22' :: body) (name, x) more

/-- **A reader of parts** up to a closing character: it takes one part, and goes on after a comma. -/
structure Collects {α : Type} (takes : Taking α) (closing : Char)
    (collect : Nat → Reads (List α)) : Prop where
  last {budget : Nat} {cs more rest : List Char} {x : α} : takes cs x more →
    skipBlanks more = closing :: rest → collect (budget + 1) cs = .ok ([x], rest)
  next {budget : Nat} {cs more between rest : List Char} {x : α} {xs : List α} :
    takes cs x more → skipBlanks more = ',' :: between →
    collect budget (skipBlanks between) = .ok (xs, rest) →
    collect (budget + 1) cs = .ok (x :: xs, rest)

lemma collects_elements (value : Reads Json) :
    Collects (takesElement value) ']' (elements value) where
  last {budget cs more rest x} (hx : value cs = .ok (x, more)) hmore := by
    simp [elements, hx, hmore, bind, Except.bind, pure, Except.pure]
  next {budget cs more between rest x xs} (hx : value cs = .ok (x, more)) hmore hxs := by
    simp [elements, hx, hmore, hxs, bind, Except.bind, pure, Except.pure]

lemma collects_fields (value : Reads Json) :
    Collects (TakesField value) '\x7d' (fields value) where
  last hfield hmore := by
    obtain ⟨hname, hcolon, hx⟩ := hfield
    simp [fields, hname, hcolon, hx, hmore, bind, Except.bind, pure, Except.pure]
  next hfield hmore hxs := by
    obtain ⟨hname, hcolon, hx⟩ := hfield
    simp [fields, hname, hcolon, hx, hmore, hxs, bind, Except.bind, pure, Except.pure]

/-- **The text is a written form of what is taken from it.** -/
structure Writes {α : Type} (takes : Taking α) (part : List Char) (x : α) : Prop where
  head : ∃ c cs, part = c :: cs ∧ c ∉ outer
  /-- There is no line end in it. -/
  unbroken : '\r' ∉ part
  taken : ∀ rest, Parted rest → takes (part ++ rest) x rest

section Parts

variable {α : Type} {takes : Taking α} {closing : Char} {collect : Nat → Reads (List α)}
  {gap : List Char}

/-- The characters that may come after a datum. -/
def following : List Char := [' ', '\t', '\n', '\r', ',', ']', '\x7d']

lemma parted_of_following {rest : List Char} (h : ∀ c ∈ rest.head?, c ∈ following) :
    Parted rest := by
  have hparted : ∀ c ∈ following, c.isDigit = false ∧ c ≠ '.' ∧ c ≠ 'e' ∧ c ≠ 'E' := by
    simp [following]
  exact fun c hc => hparted c (h c hc)

lemma parted_blanks {blanks more : List Char} (hblanks : ∀ c ∈ blanks, isBlank c = true)
    (hmore : ∀ c ∈ more.head?, c ∈ following) : Parted (blanks ++ more) := by
  refine parted_of_following ?_
  cases blanks with
  | nil => exact hmore
  | cons b blanks =>
    intro c hc
    cases hc
    have hb := hblanks b (by simp)
    simp only [isBlank, Bool.or_eq_true, beq_iff_eq] at hb
    rcases hb with ((rfl | rfl) | rfl) | rfl <;> decide

lemma intercalate_cons (sep part : List Char) (parts : List (List Char)) :
    ∃ more, sep.intercalate (part :: parts) = part ++ more := by
  cases parts with
  | nil => exact ⟨[], by simp⟩
  | cons other parts => exact ⟨sep ++ sep.intercalate (other :: parts), by simp⟩

lemma Writes.head_intercalate {part : List Char} {x : α} (h : Writes takes part x)
    (sep : List Char) (parts : List (List Char)) (rest : List Char) :
    ∃ c cs, sep.intercalate (part :: parts) ++ rest = c :: cs ∧ c ∉ outer := by
  obtain ⟨more, hmore⟩ := intercalate_cons sep part parts
  obtain ⟨c, cs, rfl, hc⟩ := h.head
  exact ⟨c, cs ++ more ++ rest, by rw [hmore]; rfl, hc⟩

lemma mem_intercalate {sep : List Char} {parts : List (List Char)} {c : Char}
    (h : c ∈ sep.intercalate parts) : c ∈ sep ∨ ∃ part ∈ parts, c ∈ part := by
  induction parts with
  | nil => exact absurd h List.not_mem_nil
  | cons part parts ih =>
    cases parts with
    | nil =>
      rw [List.intercalate_singleton] at h
      exact .inr ⟨part, by simp, h⟩
    | cons other parts =>
      rw [List.intercalate_cons_cons, List.mem_append, List.mem_append] at h
      rcases h with (h | h) | h
      · exact .inr ⟨part, by simp, h⟩
      · exact .inl h
      · rcases ih h with h | ⟨p, hp, h⟩
        · exact .inl h
        · exact .inr ⟨p, List.mem_cons_of_mem part hp, h⟩

lemma length_le_intercalate {sep part : List Char} {parts : List (List Char)} (h : part ∈ parts) :
    part.length ≤ (sep.intercalate parts).length := by
  induction parts with
  | nil => exact absurd h List.not_mem_nil
  | cons first parts ih =>
    cases parts with
    | nil => simp_all
    | cons other parts =>
      rw [List.intercalate_cons_cons, List.length_append, List.length_append]
      rcases List.mem_cons.1 h with rfl | h
      · omega
      · have := ih h
        omega

lemma length_parts {sep : List Char} (hsep : sep ≠ []) (parts : List (List Char)) :
    parts.length ≤ (sep.intercalate parts).length + 1 := by
  induction parts with
  | nil => exact Nat.zero_le _
  | cons part parts ih =>
    cases parts with
    | nil => simp
    | cons other parts =>
      have hpos := List.length_pos_iff.2 hsep
      rw [List.intercalate_cons_cons, List.length_append, List.length_append, List.length_cons]
      omega

/-- **Parts that are written one after the other are read one after the other.** -/
lemma Collects.run (hc : Collects takes closing collect) {parts : List (List Char)} {xs : List α}
    (h : List.Forall₂ (Writes takes) parts xs) (hne : xs ≠ []) {last : List Char}
    (hgap : ∀ c ∈ gap, isBlank c = true) (hlast : ∀ c ∈ last, isBlank c = true)
    (hclosing : closing ∈ [']', '\x7d']) {budget : Nat} (hbudget : parts.length ≤ budget)
    (rest : List Char) :
    collect budget ((',' :: gap).intercalate parts ++ (last ++ closing :: rest)) =
      .ok (xs, rest) := by
  have hend : isBlank closing = false ∧ closing ∈ following := by
    rcases List.mem_pair.1 hclosing with rfl | rfl <;> decide
  -- on the parts; one unit of the budget goes to each of them
  induction h generalizing budget with
  | nil => exact absurd rfl hne
  | @cons part x parts xs hx hxs ih =>
    obtain ⟨budget, rfl⟩ := Nat.exists_eq_succ_of_ne_zero (Nat.ne_of_gt (Nat.zero_lt_of_lt hbudget))
    cases hxs with
    | nil =>
      have htaken := hx.taken (last ++ closing :: rest)
        (parted_blanks hlast (by simpa using hend.2))
      rw [List.intercalate_singleton]
      exact hc.last htaken (skipBlanks_append hlast hend.1)
    | @cons other y parts xs hy hys =>
      have hnext := ih (List.cons_ne_nil y xs) (Nat.le_of_succ_le_succ hbudget)
      rw [List.intercalate_cons_cons, List.append_assoc, List.append_assoc]
      have htaken := hx.taken
        (',' :: gap ++ ((',' :: gap).intercalate (other :: parts) ++ (last ++ closing :: rest)))
        (parted_of_following (by simp [following]))
      have hskip : skipBlanks
          (gap ++ ((',' :: gap).intercalate (other :: parts) ++ (last ++ closing :: rest))) =
            (',' :: gap).intercalate (other :: parts) ++ (last ++ closing :: rest) := by
        obtain ⟨c, cs, hstart, hc⟩ := hy.head_intercalate (',' :: gap) parts (last ++ closing :: rest)
        rw [hstart]
        exact skipBlanks_append hgap (isBlank_of_not_mem_outer hc)
      exact hc.next htaken rfl ((congrArg (collect budget) hskip).trans hnext)

end Parts

/-! ### Brackets -/

def Breaks (cs : List Char) : Prop := ∀ c ∈ cs, c ∈ ['\n', ' ']

lemma Breaks.isBlank {cs : List Char} (h : Breaks cs) : ∀ c ∈ cs, isBlank c = true := by
  have hblank : ∀ c ∈ ['\n', ' '], Reader.isBlank c = true := by simp [Reader.isBlank]
  exact fun c hc => hblank c (h c hc)

lemma Breaks.unbroken {cs : List Char} (h : Breaks cs) : '\r' ∉ cs :=
  fun hc => absurd (h _ hc) (by decide)

lemma breaks_break (style : Style) (level : Nat) : Breaks (style.break level).toList := by
  cases style with
  | compact => simp [Breaks, Style.break]
  | indented =>
    intro c hc
    simp only [Style.break, String.toList_ofList, List.mem_cons, List.mem_replicate] at hc
    rcases hc with rfl | ⟨-, rfl⟩ <;> decide

lemma toList_enclose (style : Style) (level : Nat) (opening closing : String) {parts : List String}
    (hne : parts ≠ []) : ∃ lead gap last, Breaks lead ∧ Breaks gap ∧ Breaks last ∧
      (enclose style level opening closing parts).toList = opening.toList ++ (lead ++
        ((',' :: gap).intercalate (parts.map String.toList) ++ (last ++ closing.toList))) := by
  refine ⟨(style.break (level + 1)).toList,
    (if style = .compact then " " else style.break (level + 1)).toList,
    (style.break level).toList, breaks_break _ _, ?_, breaks_break _ _, ?_⟩
  · split
    · simp [Breaks]
    · exact breaks_break _ _
  · have hcomma : ",".toList = [','] := by decide
    unfold enclose
    rw [if_neg (by simpa using hne)]
    simp only [String.toList_append, String.toList_intercalate, List.append_assoc, hcomma,
      List.cons_append, List.nil_append]

/-- **A reader of what stands between brackets.** -/
structure Encloses {α : Type} (opening closing : Char) (collect : Nat → Reads (List α))
    (wrap : List α → Json) (read : Reads Json) : Prop where
  empty (rest : List Char) : read (opening :: closing :: rest) = .ok (wrap [], rest)
  parts {cs inner rest : List Char} {xs : List α} : skipBlanks cs = inner →
    inner.head? ≠ some closing → collect (inner.length + 1) inner = .ok (xs, rest) →
    read (opening :: cs) = .ok (wrap xs, rest)

lemma encloses_elements (budget : Nat) :
    Encloses '[' ']' (elements (value budget)) .arr (value (budget + 1)) where
  empty rest := by simp [value, skipBlanks]
  parts {cs inner rest xs} hinner hhead h := by
    simp only [value, beq_iff_eq, Char.reduceEq, if_false, if_true, hinner]
    split
    · exact absurd rfl hhead
    · rw [h]
      rfl

lemma encloses_fields (budget : Nat) :
    Encloses '\x7b' '\x7d' (fields (value budget)) (fun xs => .obj (Table.ofList xs))
      (value (budget + 1)) where
  empty rest := by simp [value, skipBlanks, Table.ofList]
  parts {cs inner rest xs} hinner hhead h := by
    simp only [value, beq_iff_eq, Char.reduceEq, if_false, if_true, hinner]
    split
    · exact absurd rfl hhead
    · rw [h]
      rfl

section Enclosed

variable {α : Type} {takes : Taking α} {opening closing : Char} {collect : Nat → Reads (List α)}
  {wrap : List α → Json} {read : Reads Json}

lemma closing_mem_outer (hclosing : closing ∈ [']', '\x7d']) : closing ∈ outer ∧ closing ≠ '\r' := by
  rcases List.mem_pair.1 hclosing with rfl | rfl <;> decide

/-- Parts between brackets are read as what they make up, whatever breaks the lines. -/
lemma Encloses.run (henclose : Encloses opening closing collect wrap read)
    (hc : Collects takes closing collect) (hclosing : closing ∈ [']', '\x7d'])
    {parts : List (List Char)} {xs : List α} (h : List.Forall₂ (Writes takes) parts xs)
    (hne : parts ≠ []) {lead gap last : List Char} (hlead : Breaks lead) (hgap : Breaks gap)
    (hlast : Breaks last) (rest : List Char) :
    read (opening :: (lead ++ ((',' :: gap).intercalate parts ++ (last ++ closing :: rest)))) =
      .ok (wrap xs, rest) := by
  -- the budget is the length of the text, and every part takes up at least its comma
  have hlength : parts.length ≤
      ((',' :: gap).intercalate parts ++ (last ++ closing :: rest)).length + 1 := by
    have := length_parts (List.cons_ne_nil ',' gap) parts
    rw [List.length_append]
    omega
  obtain ⟨part, parts, rfl⟩ := List.exists_cons_of_ne_nil hne
  obtain ⟨x, xs, hx, hxs, rfl⟩ := List.forall₂_cons_left_iff.1 h
  have hrun := hc.run h (List.cons_ne_nil x xs) hgap.isBlank hlast.isBlank hclosing hlength rest
  obtain ⟨c, cs, hstart, hfirst⟩ :=
    hx.head_intercalate (',' :: gap) parts (last ++ closing :: rest)
  rw [hstart] at hrun ⊢
  refine henclose.parts (skipBlanks_append hlead.isBlank (isBlank_of_not_mem_outer hfirst)) ?_ hrun
  rw [List.head?_cons]
  rintro ⟨⟩
  exact hfirst (closing_mem_outer hclosing).1

/-- **Enclosed parts are read back** as what they make up. -/
lemma writes_enclose (henclose : Encloses opening closing collect wrap read)
    (hc : Collects takes closing collect) (hopening : opening ∈ ['[', '\x7b'])
    (hclosing : closing ∈ [']', '\x7d']) (style : Style) (level : Nat) {parts : List String}
    {xs : List α} (h : List.Forall₂ (Writes takes) (parts.map String.toList) xs) :
    Writes (takesElement read) (enclose style level (String.ofList [opening])
      (String.ofList [closing]) parts).toList (wrap xs) := by
  have hopen : opening ∉ outer ∧ opening ≠ '\r' := by
    rcases List.mem_pair.1 hopening with rfl | rfl <;> decide
  have hclose := (closing_mem_outer hclosing).2
  by_cases hne : parts = []
  · subst hne
    cases h
    have htext : (enclose style level (String.ofList [opening]) (String.ofList [closing]) []).toList =
        [opening, closing] := by simp [enclose]
    rw [htext]
    exact ⟨⟨opening, [closing], rfl, hopen.1⟩, by simp [hopen.2.symm, hclose.symm],
      fun rest _ => henclose.empty rest⟩
  obtain ⟨lead, gap, last, hlead, hgap, hlast, htext⟩ :=
    toList_enclose style level (String.ofList [opening]) (String.ofList [closing]) hne
  -- line ends are unified when a file is read, so a carriage return would not come back
  have hunbroken : ∀ part ∈ parts.map String.toList, '\r' ∉ part :=
    ((List.forall₂_and_left _ _).1 (h.imp fun _ _ hpart => ⟨hpart.unbroken, hpart⟩)).1
  have hparts : '\r' ∉ (',' :: gap).intercalate (parts.map String.toList) := by
    intro hmem
    rcases mem_intercalate hmem with hmem | ⟨part, hpart, hmem⟩
    · simp [hgap.unbroken] at hmem
    · exact hunbroken part hpart hmem
  rw [htext, String.toList_ofList, String.toList_ofList]
  refine ⟨⟨opening, _, rfl, hopen.1⟩, ?_, fun rest _ => ?_⟩
  · simp [hopen.2.symm, hlead.unbroken, hparts, hlast.unbroken, hclose.symm]
  · have hread := henclose.run hc hclosing h (by simpa using hne) hlead hgap hlast rest
    simpa [takesElement] using hread

end Enclosed

end Reader

/-! ### Data -/

mutual
/-- The fields of each object in a datum have different names. -/
def Distinct : Json → Prop
  | .arr xs => DistinctElements xs
  | .obj fields => (fields.map Prod.fst).Nodup ∧ DistinctFields fields
  | _ => True
def DistinctElements : List Json → Prop
  | [] => True
  | x :: xs => Distinct x ∧ DistinctElements xs
def DistinctFields : List (String × Json) → Prop
  | [] => True
  | (_, x) :: xs => Distinct x ∧ DistinctFields xs
end

namespace Reader

variable {budget : Nat}

lemma toList_writeText (s : String) :
    (writeText s).toList = '\x22' :: (s.toList.flatMap escape ++ ['\x22']) := by
  simp [writeText]

lemma unbroken_writeText (s : String) : '\r' ∉ (writeText s).toList := by
  have hbody : '\r' ∉ s.toList.flatMap escape := by
    intro hmem
    obtain ⟨c, -, hc⟩ := List.mem_flatMap.1 hmem
    exact unbroken_escape c hc
  simp [toList_writeText, hbody]

lemma writes_text (s : String) :
    Writes (takesElement (value (budget + 1))) (writeText s).toList (.str s) := by
  refine ⟨⟨_, _, toList_writeText s, by decide⟩, unbroken_writeText s, fun rest _ => ?_⟩
  rw [toList_writeText, List.cons_append, List.append_assoc]
  simp [takesElement, value, text_writeText, bind, Except.bind, pure, Except.pure]

/-- A text of digits with a sign, or without. -/
lemma signed_digits (negative : Bool) {text : List Char}
    (hhead : ∃ d ds, text = d :: ds ∧ d.isDigit = true) (hunbroken : '\r' ∉ text) :
    (∃ c cs, (if negative then ['-'] else []) ++ text = c :: cs ∧ c ∉ outer) ∧
      '\r' ∉ (if negative then ['-'] else []) ++ text := by
  cases negative with
  | false =>
    obtain ⟨d, ds, rfl, hd⟩ := hhead
    have hdigit : ∀ c ∈ outer, c.isDigit = false := by simp [outer]
    exact ⟨⟨d, ds, rfl, fun hmem => by simp [hdigit d hmem] at hd⟩, hunbroken⟩
  | true => exact ⟨⟨'-', text, rfl, by decide⟩, by simpa using hunbroken⟩

lemma writes_integer {n : Int} {s : String} (h : integerText n = .ok s) :
    Writes (takesElement (value (budget + 1))) s.toList (.int n) := by
  have htext : s.toList = (if n < 0 then ['-'] else []) ++ Nat.toDigits 10 n.natAbs := by
    unfold integerText at h
    split at h
    · obtain rfl := Except.ok.inj h
      exact String.toList_ofList
    · cases h
  have hwhole := isWhole_toDigits n.natAbs
  obtain ⟨hhead, hunbroken⟩ := signed_digits (n < 0) hwhole.head (unbroken_digits hwhole.digit)
  simp only [decide_eq_true_eq, ← htext] at hhead hunbroken
  exact ⟨hhead, hunbroken, fun rest hrest => value_integerText h budget hrest⟩

lemma writes_double (x : Binary64) :
    Writes (takesElement (value (budget + 1))) (writeDouble x).toList (.flt x) := by
  have hread := fun rest (hrest : Parted rest) => value_writeDouble x budget hrest
  rcases writeDouble_cases x with ⟨-, h⟩ | ⟨-, h⟩ | ⟨-, h⟩ | ⟨negative, rank, -, hrank, h⟩
  · exact ⟨⟨'N', "aN".toList, by rw [h]; decide, by decide⟩, by rw [h]; decide, hread⟩
  · exact ⟨⟨'I', "nfinity".toList, by rw [h]; decide, by decide⟩, by rw [h]; decide, hread⟩
  · exact ⟨⟨'-', "Infinity".toList, by rw [h]; decide, by decide⟩, by rw [h]; decide, hread⟩
  · obtain ⟨m, e, hdenotes, -⟩ := Binary64.denotes_magnitudeText hrank
    obtain ⟨hhead, hunbroken⟩ := signed_digits negative hdenotes.head hdenotes.unbroken
    rw [← h] at hhead hunbroken
    exact ⟨hhead, hunbroken, hread⟩

lemma writes_field {read : Reads Json} {s : String} {x : Json} (name : String)
    (h : Writes (takesElement read) s.toList x) :
    Writes (TakesField read) (writeText name ++ ": " ++ s).toList (name, x) := by
  have hcolon : ": ".toList = [':', ' '] := by decide
  have htext : (writeText name ++ ": " ++ s).toList =
      '\x22' :: (name.toList.flatMap escape ++ '\x22' :: ':' :: ' ' :: s.toList) := by
    simp [toList_writeText, hcolon]
  refine ⟨⟨_, _, htext, by decide⟩, ?_, fun rest hrest => ?_⟩
  · simp [unbroken_writeText, hcolon, h.unbroken]
  · obtain ⟨c, cs, hs, hc⟩ := h.head
    have hskip : skipBlanks ([' '] ++ (s.toList ++ rest)) = s.toList ++ rest := by
      rw [hs]
      exact skipBlanks_append (by simp [isBlank]) (isBlank_of_not_mem_outer hc)
    have htaken : read (skipBlanks ([' '] ++ (s.toList ++ rest))) = .ok (x, rest) := by
      rw [hskip]
      exact h.taken rest hrest
    rw [htext, List.cons_append, List.append_assoc]
    exact .mk (text_writeText _ name _) rfl htaken

lemma ofList_of_nodup {α : Type} {fields : List (String × α)} (h : (fields.map Prod.fst).Nodup) :
    Table.ofList fields = fields := by
  have hfold : ∀ table : List (String × α), ((table ++ fields).map Prod.fst).Nodup →
      fields.foldl (fun table (key, a) => Table.insert key a table) table = table ++ fields := by
    clear h
    induction fields with
    | nil => simp
    | cons entry fields ih =>
      obtain ⟨key, a⟩ := entry
      intro table htable
      have hnew : key ∉ table.map Prod.fst := by
        rw [List.map_append, List.nodup_append] at htable
        exact fun hmem => htable.2.2 _ hmem _ (by simp) rfl
      rw [List.foldl_cons]
      dsimp only
      rw [Table.insert_of_not_mem hnew, ih _ (by simpa using htable), List.append_assoc]
      rfl
  exact hfold [] h

lemma length_of_enclose {style : Style} {level : Nat} {opening closing : Char} {parts : List String}
    (h : (enclose style level (String.ofList [opening])
      (String.ofList [closing]) parts).toList.length < budget + 1) :
    ∀ part ∈ parts, part.toList.length < budget := by
  intro part hpart
  obtain ⟨lead, gap, last, -, -, -, htext⟩ := toList_enclose style level (String.ofList [opening])
    (String.ofList [closing]) (List.ne_nil_of_mem hpart)
  have hlength : part.toList.length ≤ ((',' :: gap).intercalate (parts.map String.toList)).length :=
    length_le_intercalate (List.mem_map_of_mem hpart)
  simp only [htext, String.toList_ofList, List.length_append, List.length_singleton] at h
  omega

/-- **The datum is read back** from what is written for it. -/
def ReadsBack (style : Style) (x : Json) : Prop :=
  ∀ (level budget : Nat) (s : String), write style level x = .ok s → s.toList.length < budget →
    Writes (takesElement (value budget)) s.toList x

def ElementsReadBack (style : Style) (xs : List Json) : Prop :=
  ∀ (level budget : Nat) (parts : List String), writeElements style level xs = .ok parts →
    (∀ part ∈ parts, part.toList.length < budget) →
    List.Forall₂ (Writes (takesElement (value budget))) (parts.map String.toList) xs

def FieldsReadBack (style : Style) (fields : List (String × Json)) : Prop :=
  ∀ (level budget : Nat) (parts : List String), writeFields style level fields = .ok parts →
    (∀ part ∈ parts, part.toList.length < budget) →
    List.Forall₂ (Writes (TakesField (value budget))) (parts.map String.toList) fields

variable {style : Style}

/-- For a datum without parts it is enough that it is read with any budget. -/
lemma readsBack_of_succ {x : Json}
    (h : ∀ (level budget : Nat) (s : String), write style level x = .ok s →
      Writes (takesElement (value (budget + 1))) s.toList x) : ReadsBack style x := by
  intro level budget s hs hbudget
  obtain ⟨budget, rfl⟩ := Nat.exists_eq_succ_of_ne_zero (Nat.ne_of_gt (Nat.zero_lt_of_lt hbudget))
  exact h level budget s hs

lemma readsBack_null : ReadsBack style .null := by
  refine readsBack_of_succ fun level budget s hs => ?_
  obtain rfl := Except.ok.inj hs
  refine ⟨⟨'n', "ull".toList, by decide, by decide⟩, by decide, fun rest _ => ?_⟩
  simp [takesElement, value, named?, names, after?]

lemma readsBack_bool (b : Bool) : ReadsBack style (.bool b) := by
  refine readsBack_of_succ fun level budget s hs => ?_
  obtain rfl := Except.ok.inj hs
  cases b with
  | false =>
    refine ⟨⟨'f', "alse".toList, by decide, by decide⟩, by decide, fun rest _ => ?_⟩
    simp [takesElement, value, named?, names, after?]
  | true =>
    refine ⟨⟨'t', "rue".toList, by decide, by decide⟩, by decide, fun rest _ => ?_⟩
    simp [takesElement, value, named?, names, after?]

lemma readsBack_int (n : Int) : ReadsBack style (.int n) := by
  refine readsBack_of_succ fun level budget s hs => ?_
  unfold write at hs
  exact writes_integer hs

lemma readsBack_flt (x : Binary64) : ReadsBack style (.flt x) := by
  refine readsBack_of_succ fun level budget s hs => ?_
  obtain rfl := Except.ok.inj hs
  exact writes_double x

lemma readsBack_str (t : String) : ReadsBack style (.str t) := by
  refine readsBack_of_succ fun level budget s hs => ?_
  obtain rfl := Except.ok.inj hs
  exact writes_text t

lemma readsBack_arr {xs : List Json} (h : ElementsReadBack style xs) :
    ReadsBack style (.arr xs) := by
  intro level budget s hs hbudget
  obtain ⟨budget, rfl⟩ := Nat.exists_eq_succ_of_ne_zero (Nat.ne_of_gt (Nat.zero_lt_of_lt hbudget))
  obtain ⟨parts, hparts, hs⟩ := ok_of_bind hs
  obtain rfl := Except.ok.inj hs
  exact writes_enclose (encloses_elements budget) (collects_elements _) (by simp) (by simp) style
    level (h _ budget parts hparts (length_of_enclose hbudget))

lemma readsBack_obj {fields : List (String × Json)} (hnames : (fields.map Prod.fst).Nodup)
    (h : FieldsReadBack style fields) : ReadsBack style (.obj fields) := by
  intro level budget s hs hbudget
  obtain ⟨budget, rfl⟩ := Nat.exists_eq_succ_of_ne_zero (Nat.ne_of_gt (Nat.zero_lt_of_lt hbudget))
  obtain ⟨parts, hparts, hs⟩ := ok_of_bind hs
  obtain rfl := Except.ok.inj hs
  have hwrites := writes_enclose (encloses_fields budget) (collects_fields _) (by simp) (by simp)
    style level (h _ budget parts hparts (length_of_enclose hbudget))
  rwa [ofList_of_nodup hnames] at hwrites

lemma elementsReadBack_nil : ElementsReadBack style [] := by
  intro level budget parts hparts _
  obtain rfl := Except.ok.inj hparts
  exact .nil

lemma elementsReadBack_cons {x : Json} {xs : List Json} (hx : ReadsBack style x)
    (hxs : ElementsReadBack style xs) : ElementsReadBack style (x :: xs) := by
  intro level budget parts h hbudget
  obtain ⟨s, hs, h⟩ := ok_of_bind h
  obtain ⟨parts, hparts, h⟩ := ok_of_bind h
  obtain rfl := Except.ok.inj h
  exact .cons (hx level budget s hs (hbudget s (by simp)))
    (hxs level budget parts hparts fun part hpart => hbudget part (by simp [hpart]))

lemma fieldsReadBack_nil : FieldsReadBack style [] := by
  intro level budget parts hparts _
  obtain rfl := Except.ok.inj hparts
  exact .nil

lemma fieldsReadBack_cons {name : String} {x : Json} {xs : List (String × Json)}
    (hx : ReadsBack style x) (hxs : FieldsReadBack style xs) :
    FieldsReadBack style ((name, x) :: xs) := by
  intro level budget parts h hbudget
  obtain ⟨s, hs, h⟩ := ok_of_bind h
  obtain ⟨parts, hparts, h⟩ := ok_of_bind h
  obtain rfl := Except.ok.inj h
  have hlength := hbudget (writeText name ++ ": " ++ s) (by simp)
  simp only [String.toList_append, List.length_append] at hlength
  exact .cons (writes_field name (hx level budget s hs (by omega)))
    (hxs level budget parts hparts fun part hpart => hbudget part (by simp [hpart]))

end Reader

open Reader

mutual
/-- **Every datum is read back**, if the fields of its objects have different names. -/
theorem readsBack (style : Style) : ∀ x : Json, x.Distinct → ReadsBack style x
  | .null, _ => readsBack_null
  | .bool b, _ => readsBack_bool b
  | .int n, _ => readsBack_int n
  | .flt x, _ => readsBack_flt x
  | .str t, _ => readsBack_str t
  | .arr xs, h => readsBack_arr (elementsReadBack style xs h)
  | .obj fields, h => readsBack_obj h.1 (fieldsReadBack style fields h.2)
theorem elementsReadBack (style : Style) :
    ∀ xs : List Json, DistinctElements xs → ElementsReadBack style xs
  | [], _ => elementsReadBack_nil
  | x :: xs, h => elementsReadBack_cons (readsBack style x h.1) (elementsReadBack style xs h.2)
theorem fieldsReadBack (style : Style) :
    ∀ fields : List (String × Json), DistinctFields fields → FieldsReadBack style fields
  | [], _ => fieldsReadBack_nil
  | (_, x) :: fields, h =>
    fieldsReadBack_cons (readsBack style x h.1) (fieldsReadBack style fields h.2)
end

/-- **What is rendered is parsed as the same datum**, and there is no line end in it. -/
theorem parse_render {style : Style} {x : Json} {s : String} (hx : x.Distinct)
    (h : render style x = .ok s) : parse s = .ok x ∧ '\r' ∉ s.toList := by
  have hwrites := readsBack style x hx 0 (s.toList.length + 1) s h (Nat.lt_succ_self _)
  refine ⟨?_, hwrites.unbroken⟩
  obtain ⟨c, cs, hs, hc⟩ := hwrites.head
  have hmark : (s.toList.head? == some '\uFEFF') = false := by
    rw [hs, List.head?_cons, beq_eq_false_iff_ne]
    rintro ⟨⟩
    exact hc (by decide)
  have hskip : skipBlanks s.toList = s.toList := by
    rw [hs]
    exact skipBlanks_cons (isBlank_of_not_mem_outer hc)
  have hvalue : value (s.toList.length + 1) s.toList = .ok (x, []) := by
    have htaken := hwrites.taken [] nofun
    rwa [List.append_nil] at htaken
  have hdocument : document s.toList = .ok x := by
    unfold document
    rw [hmark, hskip, hvalue]
    rfl
  unfold parse
  rw [hdocument]

mutual
/-- **A datum is written** if all integers in it can be printed. -/
theorem exists_write (style : Style) (level : Nat) :
    ∀ x : Json, x.isPrintable = true → ∃ s, write style level x = .ok s
  | .null | .bool _ | .flt _ | .str _ => fun _ => ⟨_, rfl⟩
  | .int n => by
    intro h
    rw [isPrintable] at h
    exact ⟨decimalText n, by rw [write, integerText, if_pos h]⟩
  | .arr xs => by
    intro h
    obtain ⟨parts, hparts⟩ := exists_writeElements style (level + 1) xs h
    exact ⟨_, by rw [write, hparts]; rfl⟩
  | .obj fields => by
    intro h
    obtain ⟨parts, hparts⟩ := exists_writeFields style (level + 1) fields h
    exact ⟨_, by rw [write, hparts]; rfl⟩
theorem exists_writeElements (style : Style) (level : Nat) : ∀ xs : List Json,
    arePrintable xs = true → ∃ parts, writeElements style level xs = .ok parts
  | [] => fun _ => ⟨[], rfl⟩
  | x :: xs => by
    intro h
    rw [arePrintable, Bool.and_eq_true] at h
    obtain ⟨s, hs⟩ := exists_write style level x h.1
    obtain ⟨parts, hparts⟩ := exists_writeElements style level xs h.2
    exact ⟨s :: parts, by rw [writeElements, hs, hparts]; rfl⟩
theorem exists_writeFields (style : Style) (level : Nat) : ∀ fields : List (String × Json),
    arePrintableFields fields = true → ∃ parts, writeFields style level fields = .ok parts
  | [] => fun _ => ⟨[], rfl⟩
  | (name, x) :: fields => by
    intro h
    rw [arePrintableFields, Bool.and_eq_true] at h
    obtain ⟨s, hs⟩ := exists_write style level x h.1
    obtain ⟨parts, hparts⟩ := exists_writeFields style level fields h.2
    exact ⟨_, by rw [writeFields, hs, hparts]; rfl⟩
end

end Hive.Json
