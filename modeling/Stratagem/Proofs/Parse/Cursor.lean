import Mathlib
import Stratagem.Proofs.Parse.Rule

/-!
# The cursor of a session

A session takes calls in any order, also after calls that failed, on any list of tokens. Its cursor
stays where it may be (`AtCursor`): the tokens held are those of the start, the tokens left are the
held ones from the position on, and the position is at most that of the first end marker, so there
always is a next token.

One call keeps the tokens and only consumes (`Session.onward_perform`), and it consumes at least one
token if it asks for a part of a program and succeeds (`Session.length_lt_of_returned`). A run is the
induction over its calls (`Session.pairwise_onward`). What the parsing functions themselves do comes
from `Advances`.
-/

namespace Stratagem.Parse

open Reader Grammar

/-- The index of the first end marker. -/
def firstEnd (ts : List Token) : Nat := ts.findIdx fun t => t.kind = .eof

/-- A list that is behind consumed tokens stands at their number, at most at the first end
marker. -/
theorem Consumes.position {ts rest : List Token} (h : Consumes ts rest) :
    rest = ts.drop (ts.length - rest.length) ∧ ts.length - rest.length ≤ firstEnd ts := by
  induction h with
  | refl ts => simp
  | @cons t ts rest ht h ih =>
    obtain ⟨hdrop, hend⟩ := ih
    have hlength : (t :: ts).length - rest.length = ts.length - rest.length + 1 := by
      have := h.length_le
      simp only [List.length_cons]
      omega
    have hfirst : firstEnd (t :: ts) = firstEnd ts + 1 := by
      simp [firstEnd, List.findIdx_cons, ht]
    rw [hlength, hfirst, List.drop_succ_cons]
    exact ⟨hdrop, Nat.succ_le_succ hend⟩

/-- A parser holds an end marker. -/
theorem exists_eof_mem_held (tokens : List Token) : ∃ t ∈ held tokens, t.kind = .eof := by
  rcases held_cases tokens with ⟨last, hlast, hend, hheld⟩ | ⟨e, he, hheld⟩
  · exact ⟨last, by rwa [hheld], hend⟩
  · exact ⟨e, by simp [hheld], he⟩

theorem firstEnd_held_lt (tokens : List Token) : firstEnd (held tokens) < (held tokens).length := by
  obtain ⟨t, ht, hkind⟩ := exists_eof_mem_held tokens
  exact List.findIdx_lt_length_of_exists ⟨t, ht, by simpa using hkind⟩

/-- The calls that ask for a part of a program. -/
def Call.Parses : Call → Prop
  | .direction | .rule _ | .program => True
  | _ => False

/-- The answers of calls that return. -/
def Answer.Returned : Answer → Prop
  | .failed _ => False
  | _ => True

namespace Session

variable {s s' s'' : Session} {call : Call} {calls : List Call}

/-- The sessions of a run: the first one, and the one after each call. -/
def sessions (s : Session) (calls : List Call) : List Session := s :: (s.run calls).map Prod.snd

theorem sessions_cons (s : Session) (call : Call) (calls : List Call) :
    s.sessions (call :: calls) = s :: (s.perform call).2.sessions calls := rfl

/-- `Onward s s'`: the second session holds the tokens of the first and has only consumed. -/
structure Onward (s s' : Session) : Prop where
  held : s'.held = s.held
  rest : Consumes s.rest s'.rest

namespace Onward

theorem refl (s : Session) : Onward s s := ⟨rfl, .refl s.rest⟩

theorem trans (h : Onward s s') (h' : Onward s' s'') : Onward s s'' :=
  ⟨h'.held.trans h.held, h.rest.trans h'.rest⟩

theorem pos_le (h : Onward s s') : s.pos ≤ s'.pos := by
  rw [pos, pos, h.held]
  exact Nat.sub_le_sub_left h.rest.length_le _

end Onward

/-- A session stands where its cursor may be, given the tokens that it was started with. -/
structure AtCursor (tokens : List Token) (s : Session) : Prop where
  /-- The tokens held are those of the start. -/
  held : s.held = Parse.held tokens
  /-- The tokens left are the held ones from the position on. -/
  rest : s.rest = s.held.drop s.pos
  /-- The position is at most that of the first end marker held. -/
  pos_le : s.pos ≤ firstEnd s.held
  /-- The next token is a token held, the one at the position. -/
  next : s.held[s.pos]? = some (next s.rest)

/-- Sessions that come from the start stand where their cursor may be. -/
theorem Onward.atCursor {tokens : List Token} (h : (start tokens).Onward s) :
    s.AtCursor tokens := by
  have hheld : s.held = Parse.held tokens := h.held
  obtain ⟨hrest, hpos⟩ : s.rest = s.held.drop s.pos ∧ s.pos ≤ firstEnd s.held := by
    rw [pos, hheld]
    exact h.rest.position
  have hlt : s.pos < s.held.length := by
    refine Nat.lt_of_le_of_lt hpos ?_
    rw [hheld]
    exact firstEnd_held_lt tokens
  refine ⟨hheld, hrest, hpos, ?_⟩
  rw [hrest, List.drop_eq_getElem_cons hlt]
  exact List.getElem?_eq_getElem hlt

/-! ## One call -/

/-- A call that makes a step goes where the reader of the step goes. -/
theorem onward_answerStep {α : Type} {bound : List Token → Nat} (wrap : α → Answer)
    (f : (ts : List Token) → Step α (bound ts)) (hf : ∀ n, Advances n (of f)) :
    s.Onward (s.answerStep wrap (f s.rest)).2 := by
  have hrun := hf (s.rest.length + 1) s.rest (Nat.lt_succ_self _)
  unfold of at hrun
  cases hstep : f s.rest with
  | done value rest fewer | failed fault rest =>
    rw [hstep] at hrun
    exact ⟨rfl, hrun⟩

theorem onward_afterNext (s : Session) : s.Onward { s with rest := afterNext s.rest } :=
  ⟨rfl, .afterNext s.rest⟩

/-- **A call only moves onward**, whether it returns or fails. -/
theorem onward_perform (s : Session) (call : Call) : s.Onward (s.perform call).2 := by
  cases call with
  | peek | isAtEnd | check | problem => exact .refl s
  | advance => exact s.onward_afterNext
  | accept kinds =>
    rw [perform]
    split
    · exact s.onward_afterNext
    · exact .refl s
  | expect kind text =>
    rw [perform]
    split
    · exact s.onward_afterNext
    · exact .refl s
  | direction =>
    exact onward_answerStep .direction Parse.direction fun n =>
      (@predictive_direction (fun _ => False) n).advances
  | rule rule => exact onward_answerStep .node rule.step (advances_rule rule)
  | program =>
    exact onward_answerStep .program Parse.program fun n => (predictive_program n).advances

/-- A step that returns an answer is one that succeeds. -/
theorem of_answerStep_returned {α : Type} {bound : List Token → Nat} {wrap : α → Answer}
    {f : (ts : List Token) → Step α (bound ts)}
    (h : (s.answerStep wrap (f s.rest)).1.Returned) :
    ∃ a, of f s.rest = (.ok a, (s.answerStep wrap (f s.rest)).2.rest) := by
  unfold of
  cases hstep : f s.rest with
  | done value rest fewer => exact ⟨value, rfl⟩
  | failed fault rest =>
    rw [hstep] at h
    exact h.elim

/-- **A call for a part of a program consumes at least one token if it returns.** -/
theorem length_lt_of_returned (hcall : call.Parses) (h : (s.perform call).1.Returned) :
    (s.perform call).2.rest.length < s.rest.length := by
  cases call with
  | direction =>
    obtain ⟨d, hrun⟩ := of_answerStep_returned (f := Parse.direction) h
    exact length_of_ok hrun
  | rule rule =>
    obtain ⟨n, hrun⟩ := of_answerStep_returned h
    exact length_of_ok hrun
  | program =>
    obtain ⟨p, hrun⟩ := of_answerStep_returned h
    exact length_lt_of_program hrun
  | peek | advance | isAtEnd | check | accept | expect | problem => exact hcall.elim

/-! ## A run of calls -/

theorem onward_of_mem_sessions (h : s' ∈ s.sessions calls) : s.Onward s' := by
  induction calls generalizing s with
  | nil =>
    obtain rfl := List.mem_singleton.mp h
    exact .refl s'
  | cons call calls ih =>
    rw [sessions_cons] at h
    rcases List.mem_cons.mp h with rfl | h
    · exact .refl s'
    · exact (s.onward_perform call).trans (ih h)

/-- **Every later session of a run lies onward.** -/
theorem pairwise_onward (s : Session) (calls : List Call) :
    (s.sessions calls).Pairwise Onward := by
  induction calls generalizing s with
  | nil => exact List.pairwise_singleton _ _
  | cons call calls ih =>
    rw [sessions_cons]
    refine List.pairwise_cons.mpr ⟨fun s' hs' => ?_, ih _⟩
    exact (s.onward_perform call).trans (onward_of_mem_sessions hs')

/-- The sessions before and after a call of a run are those of the call. -/
theorem perform_of_getElem? {i : Nat} {answer : Answer} (hs : (s''.sessions calls)[i]? = some s)
    (hcall : calls[i]? = some call) (hrun : (s''.run calls)[i]? = some (answer, s')) :
    s.perform call = (answer, s') := by
  induction calls generalizing s'' i with
  | nil => simp at hcall
  | cons first calls ih =>
    cases i with
    | zero =>
      obtain rfl : s'' = s := Option.some.inj hs
      obtain rfl : first = call := Option.some.inj hcall
      exact Option.some.inj hrun
    | succ i => exact ih hs hcall hrun

end Session

/-- **The cursor of a session**, for any tokens and any calls, whether they return or fail: every
session of the run stands where its cursor may be, the position never goes back, and a call for a
part of a program that returns has moved it on. Hence no loop of the parser goes round forever, and
one that returns has gone round up to a token that ends it. -/
theorem session_cursor (tokens : List Token) (calls : List Call) :
    (∀ s ∈ (Session.start tokens).sessions calls, s.AtCursor tokens) ∧
    ((Session.start tokens).sessions calls).Pairwise (fun s s' => s.pos ≤ s'.pos) ∧
    (∀ (i : Nat) (call : Call) (answer : Answer) (s s' : Session),
      ((Session.start tokens).sessions calls)[i]? = some s → calls[i]? = some call →
      ((Session.start tokens).run calls)[i]? = some (answer, s') →
      call.Parses → answer.Returned → s.pos < s'.pos) ∧
    ∀ loop : Loop, (WellFounded fun later earlier => loop.Round earlier later) ∧
      ∀ ts rest, loop.Leaves ts rest →
        Relation.ReflTransGen loop.Round ts rest ∧ ¬ loop.Continues (next rest).kind := by
  have hcursor : ∀ s ∈ (Session.start tokens).sessions calls, s.AtCursor tokens :=
    fun s hs => (Session.onward_of_mem_sessions hs).atCursor
  refine ⟨hcursor, ?_, fun i call answer s s' hs hcall hrun hparses hreturned => ?_,
    fun loop => ⟨loop.wellFounded_round, fun ts rest hleaves => hleaves.rounds⟩⟩
  · exact ((Session.start tokens).pairwise_onward calls).imp Session.Onward.pos_le
  · have hperform := Session.perform_of_getElem? hs hcall hrun
    have honward : s.Onward s' := by
      have := s.onward_perform call
      rwa [hperform] at this
    have hshorter : s'.rest.length < s.rest.length := by
      have := Session.length_lt_of_returned (s := s) hparses (by rwa [hperform])
      rwa [hperform] at this
    -- the tokens left are held, so their number tells the position
    have hleft : s.rest.length ≤ s.held.length := by
      rw [(hcursor s (List.mem_of_getElem? hs)).rest, List.length_drop]
      exact Nat.sub_le _ _
    rw [Session.pos, Session.pos, honward.held]
    omega

/-- A list of tokens with an end marker in its middle and none at its end. -/
def endedEarly : List Token :=
  [{ kind := .done, lexeme := "done" }, { kind := .move, lexeme := "move" },
    { kind := .eof, lexeme := "" }, { kind := .done, lexeme := "done" }]

/-- After a failed call a session goes on up to the first end marker and stays there; the statement
that was read has moved it on. -/
theorem session_cursor_endedEarly :
    let calls := [.rule .statement, .rule .moveStatement, .advance, .program]
    let sessions := (Session.start endedEarly).sessions calls
    sessions.map Session.pos = [0, 1, 2, 2, 2] ∧ firstEnd (held endedEarly) = 2 ∧
    (∀ s ∈ sessions, s.AtCursor endedEarly) ∧
    (Session.start endedEarly).pos < ((Session.start endedEarly).perform (.rule .statement)).2.pos := by
  intro calls sessions
  have hcursor := session_cursor endedEarly calls
  have hreturned : ((Session.start endedEarly).perform (.rule .statement)).1.Returned := by cbv
  refine ⟨by cbv, by decide, hcursor.1, ?_⟩
  exact hcursor.2.2.1 0 (.rule .statement) _ _ _ rfl rfl rfl trivial hreturned

end Stratagem.Parse
