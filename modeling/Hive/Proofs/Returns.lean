import Hive.Proofs.Joining

/-!
A `return` cuts the body of a function off. It may be reached deep inside a statement: in an
argument of a call, on the right of an assignment, in the operand of an `output`. Wherever that is,
what has been read up to it is read alike if a semicolon and more tokens come after the body, and
none of those that come after the semicolon is read at all.
-/

namespace Hive

open Evaluator

/-- **The body of a function comes to a `return`** of a value, in the frame `last`. -/
def Returns (depth : Nat) (program own : Scope) (console : Console) (body : List Token) (v : Value)
    (last : Frame) : Prop :=
  statements (invoke depth) ⟨endLine body, some program, true⟩ body.length none
    (frameOf body own console) = .error (.returned v) last

namespace Returns

variable {depth : Nat} {program own : Scope} {console : Console} {body : List Token} {v : Value}
  {last : Frame}

lemma runBody_eq (h : Returns depth program own console body v last) (f : Function) :
    runBody (invoke depth) program { f with body := body } own console = .ok v last.console := by
  unfold Returns at h
  unfold runBody run
  dsimp only [frameOf] at h ⊢
  rw [h]

/-- **The return is reached alike with more tokens after the body**, and those are left unread. -/
lemma append (h : Returns depth program own console body v last) (hown : own.Named)
    (hbody : ∀ t ∈ body, t.Named) (line : Int) (more : List Token) :
    ∃ last', Returns depth program own console (body ++ .semicolon line :: more) v last' ∧
      last'.console.output = last.console.output ∧ last'.scope = last.scope ∧
      more <:+ last'.rest := by
  -- the body and what follows it, joined by the semicolon: a joint without an end of input
  let j : Joint := ⟨[], line, more, .inl rfl⟩
  let longer := body ++ Token.semicolon line :: more
  have hsettings : Joint.Settings ⟨endLine body, some program, true⟩
      ⟨endLine longer, some program, true⟩ := ⟨rfl, rfl⟩
  have hbefore : j.before body longer :=
    ⟨body, hbody, (List.append_nil body).symm, rfl⟩
  have hstart : Alike j.around false (frameOf body own console) (frameOf longer own console) :=
    ⟨⟨rfl, rfl⟩, rfl, rfl, hown, rfl, .inl hbefore⟩
  have hjoined : j.Joined ⟨endLine longer, some program, true⟩ depth false
      (statements (invoke depth) ⟨endLine body, some program, true⟩ body.length none
        (frameOf body own console))
      (statements (invoke depth) ⟨endLine longer, some program, true⟩ longer.length none
        (frameOf longer own console)) :=
    Joint.joined_statements hsettings depth (Nat.le_refl _) (Nat.le_refl _) hbefore hstart
  rw [h] at hjoined
  obtain ⟨last', hlast', halike⟩ := hjoined
  refine ⟨last', hlast', halike.output, halike.scope, ?_⟩
  -- the return has left tokens of the body unread, or else all that follows the joint
  rcases halike.rest with ⟨r, -, -, hrest⟩ | ⟨-, hrest⟩
  · rw [hrest]
    exact ⟨r ++ [.semicolon line], by simp [j, Joint.rest]⟩
  · exact ⟨[], hrest.symm⟩

end Returns

/-- **A return cuts the body off.** Let a body made of tokens of texts come to a `return`, in a
scope whose names are names. Then, whatever comes after the body and a semicolon, the longer body
comes to a `return` of the same value, with the same output and in the same scope, and of the tokens
after the semicolon none has been read. So a call comes to the value and the output of the body
either way. -/
theorem returns_cut {depth : Nat} {program own : Scope} {console : Console} {body : List Token}
    {v : Value} {last : Frame} (hown : own.Named) (hbody : ∀ t ∈ body, t.Lexed)
    (h : Returns depth program own console body v last) (line : Int) (more : List Token) :
    ∃ last', Returns depth program own console (body ++ .semicolon line :: more) v last' ∧
      last'.console.output = last.console.output ∧ last'.scope = last.scope ∧
      more <:+ last'.rest ∧
      ∀ f : Function,
        runBody (invoke depth) program { f with body := body } own console =
          .ok v last.console ∧
        runBody (invoke depth) program { f with body := body ++ .semicolon line :: more } own
          console = .ok v last'.console := by
  obtain ⟨last', hlast', houtput, hscope, hunread⟩ :=
    h.append hown (fun t ht => (hbody t ht).named) line more
  exact ⟨last', hlast', houtput, hscope, hunread, fun f => ⟨h.runBody_eq f, hlast'.runBody_eq f⟩⟩

section Early

/-- A body that returns out of an argument of a call. -/
def earlyBody : List Token := Token.ofText "output n; int k = run twice(return n * 2)"

def earlyScope : Scope :=
  ⟨[(.str "n", .var ⟨plainToken .identifier "n", some (.int 21), .typeName .int⟩)]⟩

theorem returns_cut_argument :
    earlyScope.Named ∧ (∀ t ∈ earlyBody, t.Lexed) ∧
    ∃ last, Returns 2 bareProgram earlyScope .empty earlyBody (some (.int 42)) last ∧
      ∃ last', Returns 2 bareProgram earlyScope .empty
          (earlyBody ++ .semicolon 1 :: [plainToken .rightBrace "\x7d", plainToken .slash "/"])
          (some (.int 42)) last' ∧
        last'.console.output = last.console.output ∧
        [plainToken .rightBrace "\x7d", plainToken .slash "/"] <:+ last'.rest := by
  have hnamed : earlyScope.Named := by
    have hname : (Json.str "n").IsName := ⟨'n', [], rfl, by decide, by simp⟩
    intro x hx
    rw [List.mem_singleton.1 hx]
    exact ⟨hname, hname⟩
  have hvalue : (seen (statements (invoke 2) ⟨endLine earlyBody, some bareProgram, true⟩
      earlyBody.length none (frameOf earlyBody earlyScope .empty))).1 =
        .error (.returned (some (.int 42))) := by
    decide +kernel
  have hreturns : ∃ last,
      Returns 2 bareProgram earlyScope .empty earlyBody (some (.int 42)) last := by
    unfold Returns
    cases hr : statements (invoke 2) ⟨endLine earlyBody, some bareProgram, true⟩
      earlyBody.length none (frameOf earlyBody earlyScope .empty) with
    | ok v last =>
      rw [hr] at hvalue
      cases hvalue
    | error e last =>
      rw [hr] at hvalue
      obtain rfl : e = .returned (some (.int 42)) := Except.error.inj hvalue
      exact ⟨last, rfl⟩
  obtain ⟨last, hlast⟩ := hreturns
  have hlexed : ∀ t ∈ earlyBody, t.Lexed := fun t ht => Token.lexed_ofText ht
  obtain ⟨last', hlast', houtput, -, hunread, -⟩ := returns_cut hnamed hlexed hlast 1
    [plainToken .rightBrace "\x7d", plainToken .slash "/"]
  exact ⟨hnamed, hlexed, last, hlast, last', hlast', houtput, hunread⟩

end Early

end Hive
