import ChatFlow.Proofs.Session.Acceptance
import ChatFlow.Proofs.Template.Name

/-!
# Captured replies

A reply that is accepted is kept in the variable of the node that waits, and what comes next can
show it: `captured_reply_shown_unless_padded`. The placeholder of the variable's name shows exactly
the reply, whatever else is among the variables, and whatever the dots in the name could lead to.

The exception is a name that is written with blanks behind its dollar sign. It is kept with the
blanks in front and looked up without them, so its placeholder shows what it showed before the reply
(`padded_name_not_shown`).
-/

namespace ChatFlow.Session

open Template

variable {s : Setup} {st : State} {n : Node} {op : Nat} {rest : List Instruction}
  {authored text : String}

theorem vars_captured {name : String} (hname : name ≠ "") (c : Context) (reply : Value) :
    ((keeping name reply ++ [Event.resumed]).foldl Context.apply c).vars =
      c.vars.insert name reply := by
  have hkeeping : keeping name reply = [.variablesSet [(name, reply)]] :=
    if_neg (by simpa using hname)
  rw [hkeeping]
  rfl

theorem tick_captures {name : String}
    (hholder : st.holder = some ⟨op, .accept (.str text) :: rest, none⟩)
    (hwaits : s.AwaitsReply st.memory.context n) (hname : replyVariable n = .ok name)
    (hne : name ≠ "") :
    .resumed ∈ events (st.step s .tick).2 ∧
      (st.step s .tick).1.memory.context.vars =
        st.memory.context.vars.insert name (.str text) := by
  obtain ⟨port, hport⟩ := replyPort_text st.memory.context n text
  rw [State.step, State.tick_eq_carryOut hholder (perform_accept hwaits hname hport),
    State.events_carryOut, State.carryOut_memory]
  exact ⟨List.mem_append_right _ List.mem_cons_self, vars_captured hne _ _⟩

/-- Right after a reply has been accepted, the placeholder of the variable that keeps it shows
exactly the reply, unless the variable's name was written with blanks behind its dollar sign. If it
was, the placeholder shows what it showed before. -/
theorem captured_reply_shown_unless_padded
    (hholder : st.holder = some ⟨op, .accept (.str text) :: rest, none⟩)
    (hwaits : s.AwaitsReply st.memory.context n) (hvariable : n.body.replyVariable = .str authored)
    (hne : cleanName authored ≠ "") (hclosing : '\x7d' ∉ (cleanName authored).toList) :
    let after := st.step s .tick
    let shown := interpolate (placeholderOf (cleanName authored))
    .resumed ∈ events after.2 ∧
      (¬ Padded authored → shown after.1.memory.context.vars = text) ∧
      (Padded authored → shown after.1.memory.context.vars = shown st.memory.context.vars) := by
  have hname : replyVariable n = .ok (cleanName authored) := by
    rw [replyVariable, hvariable]
    rfl
  obtain ⟨hresumed, hvars⟩ := tick_captures hholder hwaits hname hne
  obtain ⟨hplain, hpadded⟩ :=
    interpolate_insert_cleanName hne hclosing st.memory.context.vars (.str text)
  refine ⟨hresumed, fun h => ?_, fun h => ?_⟩
  · rw [hvars]
    exact hplain h
  · rw [hvars]
    exact hpadded h

/-- A session that asks for a name and keeps it in a variable. -/
def capturing (authored : String) : Setup where
  graph :=
    { nodes := [⟨"s", .start {}⟩, ⟨"q", .input { question := "Name?", variableName := authored }⟩]
      edges := [{ source := "s", target := "q" }]
      sound := by rfl }
  executor := { config := { startDelay := .int 0, nodeDelay := .int 0 } }

/-- The session has been started with variables, has asked, and is about to look at the reply. -/
def toCapture (vars : Fields) (text : String) : List Move :=
  .begin (.start vars) :: List.replicate 10 .tick ++
    [.answer 0 (.value .null), .tick, .tick, .answer 0 (.value .null), .tick, .tick,
      .begin (.submit (.str text))]

/-- The variable's name is a path to another value, and its placeholder shows the reply all the
same. -/
theorem dotted_name_shown :
    let st := (State.steps (capturing "$visit.date") {}
      (toCapture [("visit", .object [("date", .str "Monday")])] "Friday")).1
    interpolate (placeholderOf "visit.date") st.memory.context.vars = "Monday" ∧
      interpolate (placeholderOf "visit.date")
        (st.step (capturing "$visit.date") .tick).1.memory.context.vars = "Friday" := by
  have hname : cleanName "$visit.date" = "visit.date" := by decide
  have hplain : ¬ Padded "$visit.date" := by
    rintro ⟨c, rest, htrim, hc⟩
    have htext : (Text.trim "$visit.date").toList = "$visit.date".toList := by decide
    obtain ⟨rfl, -⟩ := List.cons.inj (List.cons.inj (htext.symm.trans htrim)).2
    exact absurd hc (by decide)
  have hholder : (State.steps (capturing "$visit.date") {}
      (toCapture [("visit", .object [("date", .str "Monday")])] "Friday")).1.holder =
      some ⟨1, [.accept (.str "Friday")], none⟩ := by decide
  have hwaits : (capturing "$visit.date").AwaitsReply (State.steps (capturing "$visit.date") {}
      (toCapture [("visit", .object [("date", .str "Monday")])] "Friday")).1.memory.context
      ⟨"q", .input { question := "Name?", variableName := "$visit.date" }⟩ :=
    ⟨by decide, by decide, by decide⟩
  obtain ⟨-, hshown, -⟩ :=
    captured_reply_shown_unless_padded hholder hwaits rfl (by decide) (by decide)
  rw [hname] at hshown
  exact ⟨by decide, hshown hplain⟩

/-- A name with a blank behind its dollar sign is not empty and has no closing brace. The reply is
accepted, but the placeholder of the cleaned name is left as it is. -/
theorem padded_name_not_shown :
    let st := (State.steps (capturing "$ name") {} (toCapture [] "Ana")).1
    let after := st.step (capturing "$ name") .tick
    cleanName "$ name" = " name" ∧ st.holder = some ⟨1, [.accept (.str "Ana")], none⟩ ∧
      (∃ n, (capturing "$ name").AwaitsReply st.memory.context n ∧
        n.body.replyVariable = .str "$ name") ∧
      .resumed ∈ events after.2 ∧
      interpolate (placeholderOf " name") after.1.memory.context.vars =
        "\x7b\x7b name\x7d\x7d" := by
  refine ⟨by decide, by decide, ⟨⟨"q", .input { question := "Name?", variableName := "$ name" }⟩,
    ⟨by decide, by decide, by decide⟩, rfl⟩, by decide, by decide⟩

end ChatFlow.Session
