import Hive.Proofs.TokenFiles

/-!
Malformed token files. A command that runs a token file reports a file that holds no token stream,
if decoding it ends in one of the faults that say so; the other faults escape. Reading the text of
the file never escapes. Decoding the data does, at the first stored token with a field of a form that is
not looked for: a list or an object in the place of the type; one in the place of a number, or a
number that does not go over into the other kind; the same or null in the place of the line. Main
statement: decoding escapes exactly there, and all else that is no token stream is reported.
-/

namespace Hive

open Command

/-! ### Faults that escape -/

section Escapes

variable {α β : Type}

/-- **The computation escapes**: it ends in a fault that is not one of invalid data. -/
def Escapes (r : Except Fault α) : Prop := ∃ f, r = .error f ∧ isInvalidData f = false

@[simp]
lemma not_escapes_ok (a : α) : ¬Escapes (.ok a) := by
  rintro ⟨f, h, -⟩
  cases h

@[simp]
lemma escapes_error {f : Fault} : Escapes (.error f : Except Fault α) ↔ isInvalidData f = false :=
  ⟨fun ⟨_, h, hf⟩ => Except.error.inj h ▸ hf, fun hf => ⟨f, rfl, hf⟩⟩

lemma not_escapes_error {f : Fault} (hf : isInvalidData f = true) :
    ¬Escapes (.error f : Except Fault α) := by
  rw [escapes_error, hf]
  exact Bool.noConfusion

lemma escapes_bind {x : Except Fault α} {k : α → Except Fault β} :
    Escapes (x >>= k) ↔ Escapes x ∨ ∃ a, x = .ok a ∧ Escapes (k a) := by
  cases x with
  | ok a =>
    show Escapes (k a) ↔ _
    simp
  | error f =>
    show Escapes (.error f : Except Fault β) ↔ _
    simp

/-- What is made of a result that there is does not matter. -/
lemma escapes_bind_pure {x : Except Fault α} {g : α → β} :
    Escapes (x >>= fun a => pure (g a)) ↔ Escapes x := by
  rw [escapes_bind]
  exact or_iff_left fun ⟨a, _, h⟩ => not_escapes_ok (g a) h

/-- **A list escapes at its first element that does.** -/
lemma escapes_mapM {g : α → Except Fault β} {xs : List α} :
    Escapes (xs.mapM g) ↔ ∃ before x after, xs = before ++ x :: after ∧
      (∀ y ∈ before, ∃ b, g y = .ok b) ∧ Escapes (g x) := by
  -- a reading stops at its first fault, so the elements before it are well formed
  induction xs with
  | nil =>
    refine ⟨fun h => absurd h (not_escapes_ok _), ?_⟩
    rintro ⟨before, x, after, h, -⟩
    simp at h
  | cons y ys ih =>
    rw [List.mapM_cons, escapes_bind]
    simp only [escapes_bind_pure, ih]
    constructor
    · rintro (hy | ⟨b, hb, before, x, after, rfl, hbefore, hx⟩)
      · exact ⟨[], y, ys, rfl, nofun, hy⟩
      · exact ⟨y :: before, x, after, rfl, List.forall_mem_cons.2 ⟨⟨b, hb⟩, hbefore⟩, hx⟩
    · rintro ⟨before, x, after, hsplit, hbefore, hx⟩
      cases before with
      | nil =>
        cases hsplit
        exact .inl hx
      | cons z before =>
        obtain ⟨rfl, rfl⟩ := List.cons.inj hsplit
        obtain ⟨⟨b, hb⟩, hbefore⟩ := List.forall_mem_cons.1 hbefore
        exact .inr ⟨b, hb, before, x, after, rfl, hbefore, hx⟩

end Escapes

/-! ### Numbers -/

namespace Json

/-- Data that an integer is not looked for in: null, lists, objects, and the infinities. -/
def DefiesInteger : Json → Prop
  | .null | .arr _ | .obj _ => True
  | .flt x => ∃ negative, x = .infinity negative
  | .bool _ | .int _ | .str _ => False

/-- Data that a double is not looked for in: null, lists, objects, and integers beyond the largest
double. -/
def DefiesDouble : Json → Prop
  | .null | .arr _ | .obj _ => True
  | .int n => Binary64.ofInt? n = none
  | .bool _ | .flt _ | .str _ => False

lemma not_escapes_ofDigits (digits : List Char) : ¬Escapes (Numeral.ofDigits digits) := by
  unfold Numeral.ofDigits
  split
  · exact not_escapes_ok _
  · exact not_escapes_error rfl

lemma not_escapes_integer (s : String) : ¬Escapes (Numeral.integer s) := by
  unfold Numeral.integer
  dsimp only
  split
  · exact not_escapes_error rfl
  rw [escapes_bind]
  rintro (h | ⟨n, -, h⟩)
  · exact not_escapes_ofDigits _ h
  split at h
  · exact not_escapes_ok _ h
  · exact not_escapes_error rfl h

lemma not_escapes_double (s : String) : ¬Escapes (Numeral.double s) := by
  unfold Numeral.double
  dsimp only
  split
  · split
    · exact not_escapes_ok _
    split
    · exact not_escapes_ok _
    split
    · exact not_escapes_ok _
    · exact not_escapes_error rfl
  · exact not_escapes_error rfl

lemma escapes_integerOfDouble {x : Binary64} :
    Escapes (integerOfDouble x) ↔ ∃ negative, x = .infinity negative := by
  unfold integerOfDouble
  cases x with
  | nan =>
    refine iff_of_false (not_escapes_error rfl) ?_
    simp [Binary64.infinity, Binary64.ofRank]
  | ranked negative rank =>
    have htop : (∃ sign, Binary64.ranked negative rank = .infinity sign) ↔
        Binary64.isTop rank = true := by
      simp [Binary64.infinity, Binary64.ofRank, Binary64.isTop, Fin.ext_iff]
    rw [htop, Binary64.truncate]
    by_cases hrank : Binary64.isTop rank = true
    · rw [if_pos hrank]
      exact iff_of_true (escapes_error.2 rfl) hrank
    · rw [if_neg hrank]
      exact iff_of_false (not_escapes_ok _) hrank

lemma escapes_doubleOfInteger {n : Int} :
    Escapes (doubleOfInteger n) ↔ Binary64.ofInt? n = none := by
  unfold doubleOfInteger
  cases Binary64.ofInt? n with
  | none => exact iff_of_true (escapes_error.2 rfl) rfl
  | some x => exact iff_of_false (not_escapes_ok _) nofun

lemma not_escapes_plainText (x : Json) : ¬Escapes x.plainText := by
  unfold plainText
  split
  · exact not_escapes_ok _
  · exact not_escapes_error rfl

lemma not_escapes_shownText (x : Json) : ¬Escapes x.shownText := by
  unfold shownText
  split
  · exact not_escapes_ok _
  · exact not_escapes_error rfl

/-- **Taking data as an integer** escapes where none is looked for. -/
lemma escapes_toInteger {x : Json} : Escapes x.toInteger ↔ x.DefiesInteger := by
  cases x with
  | null | arr xs | obj fields => exact iff_of_true (escapes_error.2 rfl) trivial
  | bool b | int n => exact iff_of_false (not_escapes_ok _) not_false
  | str s => exact iff_of_false (not_escapes_integer s) not_false
  | flt x => exact escapes_integerOfDouble

/-- **Taking data as a double** escapes where none is looked for. -/
lemma escapes_toDouble {x : Json} : Escapes x.toDouble ↔ x.DefiesDouble := by
  cases x with
  | null | arr xs | obj fields => exact iff_of_true (escapes_error.2 rfl) trivial
  | bool b =>
    have hsome : (Binary64.ofInt? (if b then 1 else 0)).isSome = true := by
      cases b <;> decide +kernel
    refine iff_of_false (fun h => ?_) not_false
    rw [escapes_doubleOfInteger.1 h] at hsome
    cases hsome
  | int n => exact escapes_doubleOfInteger
  | str s => exact iff_of_false (not_escapes_double s) not_false
  | flt x => exact iff_of_false (not_escapes_ok _) not_false

end Json

/-! ### Stored tokens -/

namespace Token

/-- **Stored tokens with a field of a form that is not looked for**: the type is a list or an
object; or it is known, and the literal is no number as the type asks for; or the literal is taken,
and the line is no integer. -/
inductive Defies (fields : List (String × Json)) : Prop where
  | list {xs : List Json} (h : Table.get? "type" fields = some (.arr xs))
  | object {inner : List (String × Json)} (h : Table.get? "type" fields = some (.obj inner))
  | integer (hkind : kindOfJson (Table.get? "type" fields) = .ok (.literal .int)) {x : Json}
    (hx : Table.get? "literal" fields = some x) (hnull : x ≠ .null) (h : x.DefiesInteger)
  | double (hkind : kindOfJson (Table.get? "type" fields) = .ok (.literal .flt)) {x : Json}
    (hx : Table.get? "literal" fields = some x) (hnull : x ≠ .null) (h : x.DefiesDouble)
  | line {kind : TokenKind} {y : Json} (hkind : kindOfJson (Table.get? "type" fields) = .ok kind)
    (hliteral : literalOfJson kind ((Table.get? "literal" fields).getD .null) = .ok y) {x : Json}
    (hx : Table.get? "line" fields = some x) (h : x.DefiesInteger)

/-- A type that cannot be looked up is a list or an object; all others are reported. -/
lemma escapes_kindOfJson {type : Option Json} :
    Escapes (kindOfJson type) ↔
      (∃ xs, type = some (.arr xs)) ∨ ∃ inner, type = some (.obj inner) := by
  unfold kindOfJson
  split
  · exact iff_of_true (escapes_error.2 rfl) (.inl ⟨_, rfl⟩)
  · exact iff_of_true (escapes_error.2 rfl) (.inr ⟨_, rfl⟩)
  · refine iff_of_false ?_ (by simp)
    split
    · exact not_escapes_ok _
    · exact not_escapes_error rfl
  · rename_i harr hobj _
    refine iff_of_false ?_ ?_
    · rw [escapes_bind]
      rintro (h | ⟨text, -, h⟩)
      · exact Json.not_escapes_plainText _ h
      · exact not_escapes_error rfl h
    · rintro (⟨xs, h⟩ | ⟨inner, h⟩)
      · exact harr xs h
      · exact hobj inner h

lemma escapes_literalOfJson {kind : TokenKind} {x : Json} :
    Escapes (literalOfJson kind x) ↔ x ≠ .null ∧
      (kind = .literal .int ∧ x.DefiesInteger ∨ kind = .literal .flt ∧ x.DefiesDouble) := by
  unfold literalOfJson
  split
  · rename_i hnull
    simp [hnull]
  rename_i hnull
  split
  · rw [escapes_bind_pure, Json.escapes_toInteger]
    simp [hnull]
  · rw [escapes_bind_pure, Json.escapes_toDouble]
    simp [hnull]
  · rename_i hint hflt
    refine iff_of_false (not_escapes_ok _) ?_
    rintro ⟨-, ⟨rfl, -⟩ | ⟨rfl, -⟩⟩
    · exact hint rfl
    · exact hflt rfl

/-- The fields of a stored token are taken one after the other. -/
lemma escapes_obj {fields : List (String × Json)} :
    Escapes (ofJson (.obj fields)) ↔ Escapes (kindOfJson (Table.get? "type" fields)) ∨
      ∃ kind, kindOfJson (Table.get? "type" fields) = .ok kind ∧
        (Escapes (literalOfJson kind ((Table.get? "literal" fields).getD .null)) ∨
          ∃ y, literalOfJson kind ((Table.get? "literal" fields).getD .null) = .ok y ∧
            Escapes ((Table.get? "line" fields).getD (.int 0)).toInteger) := by
  unfold ofJson
  refine escapes_bind.trans (or_congr_right (exists_congr fun kind => and_congr_right fun _ => ?_))
  refine escapes_bind.trans (or_congr_right (exists_congr fun y => and_congr_right fun _ => ?_))
  exact escapes_bind_pure

/-- **A stored token escapes** exactly at such a field. -/
lemma escapes_ofJson {x : Json} :
    Escapes (ofJson x) ↔ ∃ fields, x = .obj fields ∧ Defies fields := by
  cases x with
  | obj fields =>
    have hobj : (∃ others, Json.obj fields = .obj others ∧ Defies others) ↔ Defies fields := by
      simp
    -- the fields are read in turn: the kind, then the literal, then the line
    rw [hobj, escapes_obj, escapes_kindOfJson]
    simp only [escapes_literalOfJson, Json.escapes_toInteger]
    constructor
    · rintro ((⟨xs, h⟩ | ⟨inner, h⟩) | ⟨kind, hkind, ⟨hnull, h⟩ | ⟨y, hliteral, h⟩⟩)
      · exact .list h
      · exact .object h
      · cases hx : Table.get? "literal" fields with
        | none => simp [hx] at hnull
        | some x =>
          rw [hx] at hnull h
          rcases h with ⟨rfl, h⟩ | ⟨rfl, h⟩
          · exact .integer hkind hx hnull h
          · exact .double hkind hx hnull h
      · cases hx : Table.get? "line" fields with
        | none => simp [hx, Json.DefiesInteger] at h
        | some x =>
          rw [hx] at h
          exact .line hkind hliteral hx h
    · rintro (h | h | ⟨hkind, hx, hnull, h⟩ | ⟨hkind, hx, hnull, h⟩ | ⟨hkind, hliteral, hx, h⟩)
      · exact .inl (.inl ⟨_, h⟩)
      · exact .inl (.inr ⟨_, h⟩)
      · exact .inr ⟨_, hkind, .inl (by rw [hx]; exact ⟨hnull, .inl ⟨rfl, h⟩⟩)⟩
      · exact .inr ⟨_, hkind, .inl (by rw [hx]; exact ⟨hnull, .inr ⟨rfl, h⟩⟩)⟩
      · exact .inr ⟨_, hkind, .inr ⟨_, hliteral, by rw [hx]; exact h⟩⟩
  | null | bool b | int n | flt y | str t | arr xs =>
    refine iff_of_false ?_ (by simp)
    unfold ofJson
    rw [escapes_bind]
    rintro (h | ⟨text, -, h⟩)
    · exact Json.not_escapes_shownText _ h
    · exact not_escapes_error rfl h

/-- **A stream with such a token**, and no malformed one before it. -/
def StreamDefies (x : Json) : Prop :=
  ∃ before fields after, x = .arr (before ++ .obj fields :: after) ∧
    (∀ y ∈ before, ∃ t, ofJson y = .ok t) ∧ Defies fields

/-- **Decoding a stream escapes** exactly at the first stored token of that kind. -/
lemma escapes_streamOfJson {x : Json} : Escapes (streamOfJson x) ↔ StreamDefies x := by
  cases x with
  | arr elements =>
    refine escapes_mapM.trans ?_
    simp only [escapes_ofJson]
    constructor
    · rintro ⟨before, y, after, rfl, hbefore, fields, rfl, h⟩
      exact ⟨before, fields, after, rfl, hbefore, h⟩
    · rintro ⟨before, fields, after, hsplit, hbefore, h⟩
      exact ⟨before, _, after, Json.arr.inj hsplit, hbefore, fields, rfl, h⟩
  | null | bool b | int n | flt y | str t | obj fields =>
    refine iff_of_false (not_escapes_error rfl) ?_
    rintro ⟨before, fields, after, h, -⟩
    cases h

end Token

/-! ### Reading the file -/

namespace Json.Reader

section Reported

variable {α β : Type}

def Reported (r : Except Misread α) : Prop := ∀ f, r = .error (.fault f) → isInvalidData f = true

lemma reported_ok (a : α) : Reported (.ok a) := nofun

lemma reported_expected (what : String) (rest : List Char) :
    Reported (.error (.expected what rest) : Except Misread α) := nofun

lemma Reported.bind {x : Except Misread α} {k : α → Except Misread β} (hx : Reported x)
    (hk : ∀ a, Reported (k a)) : Reported (x >>= k) := by
  intro f h
  rcases error_of_bind h with h | ⟨a, -, h⟩
  · exact hx f h
  · exact hk a f h

end Reported

lemma reported_textBody (start : List Char) (budget : Nat) (cs : List Char) :
    Reported (textBody start budget cs) := by
  fun_induction textBody start budget cs with
  | case1 => exact reported_expected _ _
  | case2 => exact reported_expected _ _
  | case3 => exact reported_expected _ _
  | case4 => exact reported_ok _
  | case5 | case6 | case9 | case11 => exact reported_expected _ _
  | case7 | case8 | case10 | case12 =>
    rename_i ih
    exact ih.bind fun _ => reported_ok _

lemma reported_text (start cs : List Char) : Reported (text start cs) :=
  (reported_textBody start _ cs).bind fun _ => reported_ok _

lemma reported_number (start : List Char) : Reported (number start) := by
  unfold number
  dsimp only
  split
  · exact reported_expected _ _
  split
  · split
    · exact reported_ok _
    · rename_i f hf
      have hreported : ¬Escapes (.error f : Except Fault Nat) := hf ▸ not_escapes_ofDigits _
      rw [escapes_error] at hreported
      intro g hg
      cases hg
      simpa using hreported
  · exact reported_ok _

lemma reported_elements {value : Reads Json} (hvalue : ∀ cs, Reported (value cs)) (budget : Nat)
    (cs : List Char) : Reported (elements value budget cs) := by
  induction budget generalizing cs with
  | zero => exact reported_expected _ _
  | succ budget ih =>
    unfold elements
    refine (hvalue cs).bind fun read => ?_
    obtain ⟨x, rest⟩ := read
    dsimp only
    split
    · exact reported_ok _
    · exact (ih _).bind fun _ => reported_ok _
    · exact reported_expected _ _

lemma reported_fields {value : Reads Json} (hvalue : ∀ cs, Reported (value cs)) (budget : Nat)
    (cs : List Char) : Reported (fields value budget cs) := by
  induction budget generalizing cs with
  | zero => exact reported_expected _ _
  | succ budget ih =>
    unfold fields
    dsimp only
    split
    · refine (reported_text _ _).bind fun read => ?_
      obtain ⟨name, cs⟩ := read
      dsimp only
      split
      · refine (hvalue _).bind fun read => ?_
        obtain ⟨x, cs⟩ := read
        dsimp only
        split
        · exact reported_ok _
        · exact (ih _).bind fun _ => reported_ok _
        · exact reported_expected _ _
      · exact reported_expected _ _
    · exact reported_expected _ _

lemma reported_value (budget : Nat) (cs : List Char) : Reported (value budget cs) := by
  induction budget generalizing cs with
  | zero => exact reported_expected _ _
  | succ budget ih =>
    cases cs with
    | nil => exact reported_expected _ _
    | cons c rest =>
      unfold value
      split
      · exact (reported_text _ _).bind fun _ => reported_ok _
      split
      · split
        · exact reported_ok _
        · exact (reported_elements ih _ _).bind fun _ => reported_ok _
      split
      · split
        · exact reported_ok _
        · exact (reported_fields ih _ _).bind fun _ => reported_ok _
      · split
        · exact reported_ok _
        · exact reported_number _

lemma reported_document (cs : List Char) : Reported (document cs) := by
  unfold document
  split
  · exact reported_expected _ _
  refine (reported_value _ _).bind fun read => ?_
  obtain ⟨x, rest⟩ := read
  dsimp only
  split
  · exact reported_ok _
  · exact reported_expected _ _

end Json.Reader

/-- **A text that cannot be read is reported.** -/
lemma Json.not_escapes_parse (s : String) : ¬Escapes (parse s) := by
  unfold parse
  split
  · exact not_escapes_ok _
  · rename_i e he
    rw [escapes_error]
    cases e with
    | expected what rest => exact Bool.noConfusion
    | fault f =>
      show ¬isInvalidData f = false
      rw [Reader.reported_document _ f he]
      exact Bool.noConfusion

/-! ### The command -/

lemma not_escapes_readText (bytes : ByteArray) :
    ¬Escapes (readText (.file bytes) >>= Json.parse) := by
  rw [escapes_bind]
  rintro (h | ⟨text, -, h⟩)
  · unfold readText at h
    dsimp only at h
    split at h
    · exact not_escapes_ok _ h
    · exact not_escapes_error rfl h
  · exact Json.not_escapes_parse text h

def Command.invalidTokenFile (path : String) (f : Fault) : Effect :=
  .error ("Error: invalid token file " ++ Path.printed path ++ ": " ++ f.message) 1

section Command

variable (depth : Nat) {request : Request} {found : String → Content} {path : String}
  {bytes : ByteArray} (haction : request.action = .runTokens path)
  (hfound : found path = .file bytes)
include haction hfound

/-- A token file that is not decoded is reported, or the fault escapes. -/
lemma perform_of_decoding {f : Fault}
    (hf : (readText (.file bytes) >>= Json.parse) >>= Token.streamOfJson = .error f) :
    perform depth request found =
      if isInvalidData f then invalidTokenFile path f else .escape f := by
  have hdecode : readText (.file bytes) >>= Token.decodeStream = .error f := by
    rw [← hf, bind_assoc]
    rfl
  unfold perform
  rw [haction]
  dsimp only [Action.path]
  rw [hfound]
  dsimp only
  rw [hdecode]
  rfl

end Command

/-- **Malformed token files.** Decoding a datum as a token stream escapes exactly if it is a list in
which the stored tokens are well-formed up to one that has a field of a form that is not looked for.
Everything else that is no token stream is reported by the command, as an invalid token file and
with status 1: bytes that are no text, a text that is no JSON, and data that do not escape. -/
theorem Token.streamOfJson_escapes_iff (x : Json) (depth : Nat) (request : Request)
    (found : String → Content) (path : String) (bytes : ByteArray) :
    (Escapes (streamOfJson x) ↔ StreamDefies x) ∧
    (request.action = .runTokens path → found path = .file bytes →
      (∀ f, readText (.file bytes) >>= Json.parse = .error f →
        perform depth request found = invalidTokenFile path f) ∧
      (readText (.file bytes) >>= Json.parse = .ok x → ∀ f, streamOfJson x = .error f →
        (¬StreamDefies x → perform depth request found = invalidTokenFile path f) ∧
        (StreamDefies x → perform depth request found = .escape f))) := by
  refine ⟨escapes_streamOfJson, fun haction hfound => ⟨fun f hf => ?_, fun hx f hf => ?_⟩⟩
  · have hreported := not_escapes_readText bytes
    rw [hf, escapes_error] at hreported
    rw [perform_of_decoding depth haction hfound (by rw [hf]; rfl),
      if_pos (by simpa using hreported)]
  · have hescapes := escapes_streamOfJson (x := x)
    rw [hf, escapes_error] at hescapes
    rw [perform_of_decoding depth haction hfound (by rw [hx]; exact hf), ← hescapes]
    constructor
    · intro hreported
      rw [if_pos (by simpa using hreported)]
    · intro hescaped
      rw [if_neg (by simp [hescaped])]

/-- The text of a token file with one token, which has null for its line. -/
def nullLine : String := "[\x7b\x22type\x22: \x22EOF\x22, \x22line\x22: null\x7d]"

/-- The file makes no token stream, and is not reported. -/
theorem Token.streamOfJson_escapes_nullLine :
    let x : Json := .arr [.obj [("type", .str "EOF"), ("line", .null)]]
    Json.parse nullLine = .ok x ∧ streamOfJson x = .error .unsuitable ∧
      isInvalidData .unsuitable = false ∧
      (perform 0 ⟨.runTokens "bad.tokens.json", 0, false⟩ fun _ => .file nullLine.toUTF8) =
        .escape .unsuitable := by
  intro x
  have hparse : Json.parse nullLine = .ok x := by decide +kernel
  have hread : readText (.file nullLine.toUTF8) = .ok nullLine := by
    have htext : Text.ofBytes nullLine.toUTF8 = .ok nullLine :=
      Text.ofBytes_toUTF8 (by decide +kernel)
    unfold readText
    dsimp only
    rw [htext]
  have hfault : (readText (.file nullLine.toUTF8) >>= Json.parse) >>= streamOfJson =
      .error .unsuitable := by
    rw [hread]
    show Json.parse nullLine >>= streamOfJson = _
    rw [hparse]
    rfl
  refine ⟨hparse, rfl, rfl, ?_⟩
  exact perform_of_decoding 0 rfl rfl hfault

end Hive
