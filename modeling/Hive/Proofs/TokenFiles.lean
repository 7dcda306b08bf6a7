import Hive.Command.Perform
import Hive.Proofs.Documents
import Hive.Proofs.Printing

/-!
Token files. A stored token gives the token back if its literal is as a stored one is taken, which is
so for every token from a text and for every token that was stored before. So a program that is run
from its token file does what it does when it is run from its text.
-/

namespace Hive

/-! ### Stored tokens -/

lemma TokenKind.mem_all (kind : TokenKind) : kind ∈ all := by
  cases kind with
  | literal type => cases type <;> decide
  | typeName type => cases type <;> decide
  | keyword word => cases word <;> decide
  | _ => decide

lemma TokenKind.ofStoredName?_storedName (kind : TokenKind) :
    ofStoredName? kind.storedName = some kind := by
  have hall : ∀ k ∈ all, ofStoredName? k.storedName = some k := by decide +kernel
  exact hall kind kind.mem_all

namespace Token

/-- The literal is one that is taken from a stored token as it is. -/
def Settled (t : Token) : Prop := literalOfJson t.kind t.literal = .ok t.literal

lemma literalOfJson_idem {kind : TokenKind} {x y : Json} (h : literalOfJson kind x = .ok y) :
    literalOfJson kind y = .ok y := by
  unfold literalOfJson at h
  split at h
  · cases h
    rfl
  split at h
  · obtain ⟨n, -, h⟩ := ok_of_bind h
    cases h
    rfl
  · obtain ⟨z, -, h⟩ := ok_of_bind h
    cases h
    rfl
  · rename_i hnull _ hint hflt
    cases h
    unfold literalOfJson
    rw [if_neg hnull]
    split
    · exact absurd rfl hint
    · exact absurd rfl hflt
    · rfl

lemma ofJson_toJson {t : Token} (h : t.Settled) : ofJson t.toJson = .ok t := by
  obtain ⟨kind, lexeme, literal, line⟩ := t
  have hkind : kindOfJson (some (.str kind.storedName)) = .ok kind := by
    unfold kindOfJson
    dsimp only
    rw [kind.ofStoredName?_storedName]
  have hliteral : literalOfJson kind literal = .ok literal := h
  simp [ofJson, toJson, Table.get?, hkind, hliteral, Json.toInteger, bind, Except.bind, pure,
    Except.pure]

lemma settled_of_ofJson {x : Json} {t : Token} (h : ofJson x = .ok t) : t.Settled := by
  unfold ofJson at h
  split at h
  · obtain ⟨kind, -, h⟩ := ok_of_bind h
    obtain ⟨literal, hliteral, h⟩ := ok_of_bind h
    obtain ⟨line, -, h⟩ := ok_of_bind h
    cases h
    exact literalOfJson_idem hliteral
  · obtain ⟨text, -, h⟩ := ok_of_bind h
    cases h

/-- **Settled tokens are taken back from their stored form.** -/
lemma streamOfJson_streamToJson {tokens : List Token} (h : ∀ t ∈ tokens, t.Settled) :
    streamOfJson (streamToJson tokens) = .ok tokens := by
  show (tokens.map toJson).mapM ofJson = .ok tokens
  induction tokens with
  | nil => rfl
  | cons t tokens ih =>
    have hmore := ih fun u hu => h u (by simp [hu])
    rw [List.map_cons, List.mapM_cons, ofJson_toJson (h t (by simp)), hmore]
    rfl

/-- **Tokens that are taken from a stored form are settled.** -/
lemma settled_of_streamOfJson {x : Json} {tokens : List Token} (h : streamOfJson x = .ok tokens) :
    ∀ t ∈ tokens, t.Settled := by
  unfold streamOfJson at h
  split at h
  · rename_i elements
    induction elements generalizing tokens with
    | nil =>
      cases h
      exact List.forall_mem_nil _
    | cons element elements ih =>
      rw [List.mapM_cons] at h
      obtain ⟨t, ht, h⟩ := ok_of_bind h
      obtain ⟨more, hmore, h⟩ := ok_of_bind h
      cases h
      exact List.forall_mem_cons.2 ⟨settled_of_ofJson ht, ih hmore⟩
  · cases h

/-- The token can be written to a file, and is taken back from it as it is. -/
structure Storable (t : Token) : Prop where
  settled : t.Settled
  printable : t.lexeme.isPrintable = true ∧ t.literal.isPrintable = true ∧
    isPrintableInteger t.line = true
  distinct : t.lexeme.Distinct ∧ t.literal.Distinct

lemma isPrintable_streamToJson {tokens : List Token} (h : ∀ t ∈ tokens, t.Storable) :
    (streamToJson tokens).isPrintable = true := by
  show Json.arePrintable (tokens.map toJson) = true
  induction tokens with
  | nil => rfl
  | cons t tokens ih =>
    have hmore := ih fun u hu => h u (by simp [hu])
    obtain ⟨hlexeme, hliteral, hline⟩ := (h t (by simp)).printable
    simp only [List.map_cons, Json.arePrintable, hmore, toJson, Json.isPrintable,
      Json.arePrintableFields, hlexeme, hliteral, hline, Bool.and_true]

lemma distinct_streamToJson {tokens : List Token} (h : ∀ t ∈ tokens, t.Storable) :
    (streamToJson tokens).Distinct := by
  show Json.DistinctElements (tokens.map toJson)
  induction tokens with
  | nil => trivial
  | cons t tokens ih =>
    obtain ⟨hlexeme, hliteral⟩ := (h t (by simp)).distinct
    refine ⟨⟨by simp, trivial, hlexeme, hliteral, trivial, trivial⟩, ?_⟩
    exact ih fun u hu => h u (by simp [hu])

/-- **A token file holds its tokens**: storable ones can be written, and are read back. -/
theorem decodeStream_encodeStream {tokens : List Token} (h : ∀ t ∈ tokens, t.Storable) :
    ∃ text, encodeStream tokens = .ok text ∧ decodeStream text = .ok tokens ∧
      '\r' ∉ text.toList := by
  obtain ⟨text, htext⟩ := Json.exists_write .indented 0 _ (isPrintable_streamToJson h)
  obtain ⟨hparse, hunbroken⟩ := Json.parse_render (distinct_streamToJson h) htext
  refine ⟨text, htext, ?_, hunbroken⟩
  unfold decodeStream
  rw [hparse]
  exact streamOfJson_streamToJson fun t ht => (h t ht).settled

end Token

/-! ### Lexed tokens -/

namespace Lexer

/-- The literal of a token in a text: null, or a text or a number of the type of its kind. -/
lemma literal_of_stands {lexeme rest : List Char} {kind : TokenKind} {literal : Json}
    (h : Stands lexeme rest kind literal) :
    Token.literalOfJson kind literal = .ok literal ∧ literal.Distinct ∧
      (literal.isPrintable = true ∨ kind = .literal .int ∧ ∃ n, literal = .int n) := by
  cases h with
  | string => exact ⟨rfl, trivial, .inl rfl⟩
  | integer => exact ⟨rfl, trivial, .inr ⟨rfl, _, rfl⟩⟩
  | double => exact ⟨rfl, trivial, .inl rfl⟩
  | _ => exact ⟨rfl, trivial, .inl rfl⟩

end Lexer

/-- **The tokens of a text can be stored**, if the number of its lines can be printed. -/
theorem Token.storable_lex {source : String} {tokens : List Token} (h : lex source = .ok tokens)
    (hlines : 1 + source.toList.count '\n' < printableBound) : ∀ t ∈ tokens, t.Storable := by
  have hstart : 1 = 1 + ([] : List Char).count '\n' := rfl
  obtain ⟨spans, hspans⟩ := Lexer.segmented_of_tokensFrom hstart h
  have hline : ∀ offset, isPrintableInteger (Lexer.lineAt source.toList offset) = true :=
    fun offset => decide_eq_true (Nat.lt_of_le_of_lt (Lexer.lineAt_le _ _) hlines)
  intro t ht
  rcases Lexer.written_of_segmented hspans t ht with ⟨span, written⟩ | rfl
  · obtain ⟨hsettled, hdistinct, hprintable⟩ := Lexer.literal_of_stands written.stands
    have hliteral : t.literal.isPrintable = true := by
      -- only an integer could be too long to print, and the lexer has limited its digits
      rcases hprintable with hprintable | ⟨hkind, n, hn⟩
      · exact hprintable
      · have hof : Literal.ofToken t = .ok (.int n) := by
          unfold Literal.ofToken
          rw [hkind, hn]
          rfl
        rw [hn, Json.isPrintable]
        exact decide_eq_true (Printing.printable_int.1 (printable_lex h t ht _ hof))
    refine ⟨hsettled, ⟨?_, hliteral, ?_⟩, ?_, hdistinct⟩
    · rw [written.lexeme]
      rfl
    · rw [written.line]
      exact hline _
    · rw [written.lexeme]
      trivial
  · exact ⟨rfl, ⟨rfl, rfl, hline _⟩, trivial, trivial⟩

/-! ### Runs from a token file -/

/-- **A text runs as its tokens do**, wherever they are made. -/
lemma Session.observe_runMade_lex (depth : Nat) (source : String) (s : Session) :
    observe (s.runMade depth (Token.lex source)) = observe (s.runSource depth source) := by
  cases h : Token.lex source with
  | ok tokens =>
    have htext : observe (s.runSource depth source) = _ :=
      observe_perform_ok (p := .text source) h depth s
    rw [htext]
    exact observe_runAfter depth [] tokens s
  | error f =>
    have htext : observe (s.runSource depth source) = _ :=
      observe_perform_error (p := .text source) h depth s
    rw [htext]
    rfl

namespace Text

lemma unifyLineEnds_of_unbroken {cs : List Char} (h : '\r' ∉ cs) : unifyLineEnds cs = cs := by
  induction cs with
  | nil => rfl
  | cons c cs ih =>
    rw [List.mem_cons, not_or] at h
    rw [unifyLineEnds, ih h.2]
    · exact fun _ hc _ => h.1 hc.symm
    · exact fun hc => h.1 hc.symm

lemma ofBytes_toUTF8 {s : String} (h : '\r' ∉ s.toList) : ofBytes s.toUTF8 = .ok s := by
  have hdecoded : String.fromUTF8? s.toUTF8 = some s := by
    simp [String.fromUTF8?, String.fromUTF8, s.isValidUTF8]
  unfold ofBytes
  rw [hdecoded]
  dsimp only
  rw [unifyLineEnds_of_unbroken h, String.ofList_toList]

end Text

namespace Command

/-- The effects print the same, and end in the same way. -/
def Effect.PrintsAs (a b : Effect) : Prop :=
  a.stdout = b.stdout ∧ a.stderr = b.stderr ∧ a.ending = b.ending

/-- What is found under each path after a command has written its token file. -/
def Effect.leaves (effect : Effect) (found : String → Content) (path : String) : Content :=
  match effect.tokenFile with
  | some (name, text) => if path = name then .file text.toUTF8 else found path
  | none => found path

lemma tokenFileName_ne_logName (path : String) : tokenFileName path ≠ logName := by
  intro h
  have hlength := congrArg (fun s => s.toList.length) h
  have hname : ".tokens.json".toList.length = 12 := by decide
  have hlog : "debug.txt".toList.length = 9 := by decide
  simp only [tokenFileName, logName, String.toList_append, List.length_append] at hlength
  omega

/-- What a command prints of a run is what can be seen of it. -/
lemma printsAs_ofRun {a b : Action} {v : Nat} {env : Bool} {p q : Report × Session}
    (h : Session.observe p = Session.observe q) :
    (ofRun ⟨a, v, env⟩ p.1 p.2).PrintsAs (ofRun ⟨b, v, env⟩ q.1 q.2) := by
  have houtcome : p.1.outcome = q.1.outcome := congrArg Observation.outcome h
  have houtput : p.1.output = q.1.output := congrArg Observation.output h
  have hscope : p.2.scope = q.2.scope := congrArg Observation.scope h
  unfold ofRun
  rw [houtcome, houtput, hscope]
  dsimp only
  split <;> exact ⟨rfl, rfl, rfl⟩

lemma printsAs_runIn {found after : String → Content} (hlog : after logName = found logName)
    {a b : Action} {v : Nat} {env : Bool} {f g : Session → Report × Session}
    (h : ∀ s, Session.observe (f s) = Session.observe (g s)) :
    (runIn after ⟨a, v, env⟩ f).PrintsAs (runIn found ⟨b, v, env⟩ g) := by
  unfold runIn
  dsimp only
  rw [hlog]
  cases if v = 0 then none else writeFault? (found logName) with
  | some fault => exact ⟨rfl, rfl, rfl⟩
  | none => exact printsAs_ofRun (h _)

lemma perform_emit {found : String → Content} {path : String} {bytes : ByteArray} {source : String}
    {tokens : List Token} {text : String} (hfile : found path = .file bytes)
    (hsource : Text.ofBytes bytes = .ok source) (hlex : Token.lex source = .ok tokens)
    (htext : Token.encodeStream tokens = .ok text)
    (hwrite : writeFault? (found (tokenFileName path)) = none) (depth v : Nat) (env : Bool) :
    perform depth ⟨.emit path, v, env⟩ found =
      ⟨[tokenFileName path], [], none, some (tokenFileName path, text), .exit 0⟩ := by
  simp [perform, Action.path, hfile, readText, hsource, emit, hlex, htext, hwrite]

lemma perform_runProgram {found : String → Content} {path : String} {bytes : ByteArray}
    {source : String} (hfile : found path = .file bytes) (hsource : Text.ofBytes bytes = .ok source)
    (depth v : Nat) (env : Bool) :
    perform depth ⟨.runProgram path, v, env⟩ found =
      runIn found ⟨.runProgram path, v, env⟩ (Session.runSource depth source) := by
  simp [perform, Action.path, hfile, readText, hsource]

lemma perform_runTokens {found : String → Content} {path : String} {bytes : ByteArray}
    {text : String} {tokens : List Token} (hfile : found path = .file bytes)
    (htext : Text.ofBytes bytes = .ok text) (htokens : Token.decodeStream text = .ok tokens)
    (depth v : Nat) (env : Bool) :
    perform depth ⟨.runTokens path, v, env⟩ found =
      runIn found ⟨.runTokens path, v, env⟩ (Session.run depth tokens) := by
  simp [perform, Action.path, hfile, readText, htext, htokens, bind, Except.bind]

end Command

open Command

/-- **Token files are faithful.** The tokens of a text, the lines of which can be numbered in print,
are written to a token file and read back as they are. In every session the text, its tokens and
those of the file run alike, and the command that emits the file and then the one that runs it
print and end like the one that runs the text. Any other stream that is taken from a stored form is
taken again from its own. -/
theorem Token.file_faithful {source : String} {tokens : List Token} (hlex : lex source = .ok tokens)
    (hlines : 1 + source.toList.count '\n' < printableBound) :
    (∃ text, encodeStream tokens = .ok text ∧ decodeStream text = .ok tokens ∧
      (∀ (depth : Nat) (s : Session),
        Session.observe (s.runMade depth (lex source)) =
            Session.observe (s.runSource depth source) ∧
          Session.observe (s.runMade depth (Failure.ofFault (decodeStream text))) =
            Session.observe (s.runSource depth source)) ∧
      ∀ (found : String → Content) (path : String) (bytes : ByteArray), found path = .file bytes →
        Text.ofBytes bytes = .ok source → writeFault? (found (tokenFileName path)) = none →
        ∀ (depth v w : Nat) (env listed : Bool),
          let first := perform depth ⟨.emit path, v, listed⟩ found
          first.ending = .exit 0 ∧ first.tokenFile = some (tokenFileName path, text) ∧
            (perform depth ⟨.runTokens (tokenFileName path), w, env⟩ (first.leaves found)).PrintsAs
              (perform depth ⟨.runProgram path, w, env⟩ found)) ∧
    ∀ (stored : Json) (others : List Token), streamOfJson stored = .ok others →
      streamOfJson (streamToJson others) = .ok others := by
  obtain ⟨text, htext, hdecode, hunbroken⟩ :=
    decodeStream_encodeStream (storable_lex hlex hlines)
  refine ⟨⟨text, htext, hdecode, fun depth s => ⟨?_, ?_⟩, ?_⟩, fun stored others hothers =>
    streamOfJson_streamToJson (settled_of_streamOfJson hothers)⟩
  · exact Session.observe_runMade_lex depth source s
  · rw [hdecode, ← Session.observe_runMade_lex, hlex]
    rfl
  · intro found path bytes hfile hsource hwrite depth v w env listed first
    have hfirst : first = _ := perform_emit hfile hsource hlex htext hwrite depth v listed
    have hname : first.leaves found (tokenFileName path) = .file text.toUTF8 := by
      simp only [hfirst, Effect.leaves, if_true]
    -- the file of tokens is not the log, so that both runs start from the same log
    have hlog : first.leaves found logName = found logName := by
      simp only [hfirst, Effect.leaves, if_neg (tokenFileName_ne_logName path).symm]
    refine ⟨by rw [hfirst], by rw [hfirst], ?_⟩
    rw [perform_runTokens hname (Text.ofBytes_toUTF8 hunbroken) hdecode,
      perform_runProgram hfile hsource]
    refine printsAs_runIn hlog fun s => ?_
    rw [← Session.observe_runMade_lex, hlex]
    rfl

/-- A text of three lines with all that is written in a special way: a string that holds a line end,
a quote and a backslash, and a whole double. -/
def quotingSource : String :=
  "str s = \x22é\\n\\\x22\\\\\x22; # text\nflt x = 2.0;\noutput s . 1"

def quotingFile (path : String) : Content :=
  if path = "a.hive" then .file quotingSource.toUTF8 else .missing

theorem Token.file_faithful_quoting :
    (∃ tokens text, lex quotingSource = .ok tokens ∧
      (tokens.map Token.literal).filter (· ≠ .null) =
        [.str "é\n\x22\\", .flt (.ofDecimal false 2 0), .int 1] ∧
      encodeStream tokens = .ok text ∧ decodeStream text = .ok tokens ∧
      (perform 1 ⟨.runTokens (tokenFileName "a.hive"), 0, true⟩
        ((perform 1 ⟨.emit "a.hive", 0, false⟩ quotingFile).leaves quotingFile)).PrintsAs
          (perform 1 ⟨.runProgram "a.hive", 0, true⟩ quotingFile)) ∧
    streamOfJson (streamToJson [⟨.literal .int, .str "", .int 7, 0⟩]) =
      .ok [⟨.literal .int, .str "", .int 7, 0⟩] := by
  have hliterals : (lex quotingSource).toOption.map
      (fun tokens => (tokens.map Token.literal).filter (· ≠ .null)) =
      some [.str "é\n\x22\\", .flt (.ofDecimal false 2 0), .int 1] := by decide +kernel
  have hlines : 1 + quotingSource.toList.count '\n' < printableBound := by
    have hcount : quotingSource.toList.count '\n' = 2 := by decide +kernel
    rw [hcount]
    exact Nat.lt_of_lt_of_le (by decide : 1 + 2 < 10 ^ 1)
      (Nat.pow_le_pow_right (by decide) (by decide))
  have hsource : Text.ofBytes quotingSource.toUTF8 = .ok quotingSource :=
    Text.ofBytes_toUTF8 (by decide +kernel)
  have hwrite : writeFault? (quotingFile (tokenFileName "a.hive")) = none := by
    unfold quotingFile
    split <;> rfl
  have hstored : streamOfJson (.arr [.obj [("type", .str "INTEGER"), ("literal", .str "7")]]) =
      .ok [⟨.literal .int, .str "", .int 7, 0⟩] := rfl
  cases hlex : lex quotingSource with
  | error f =>
    rw [hlex] at hliterals
    cases hliterals
  | ok tokens =>
    rw [hlex] at hliterals
    obtain ⟨⟨text, hencode, hdecode, -, hcommand⟩, hothers⟩ := file_faithful hlex hlines
    have hprints := (hcommand quotingFile "a.hive" _ (if_pos rfl) hsource hwrite 1 0 0 true false).2.2
    exact ⟨⟨tokens, text, rfl, Option.some.inj hliterals, hencode, hdecode, hprints⟩,
      hothers _ _ hstored⟩

end Hive
