import ChatFlow.Proofs.Session.Move

/-!
# Operations that wind up

An operation winds up when the session is not running any more and it has nothing left to do but
look at it once more (`State.WindsUp`). From then on it makes no call: `Course.windsUp` shows this
for every continuation, until the operation is over and afterwards.
-/

namespace ChatFlow.Session

/-- What an operation has left to do that will not do anything more with a session at rest. -/
inductive Winding : List Instruction → Prop
  | over : Winding []
  | visit (run : Run) : Winding [.visit run]
  | enter : Winding [.enter]

/-- The operation winds up, or is over. -/
inductive State.WindsUp (op : Nat) (st : State) : Prop
  | holds {agenda : List Instruction} {call : Option Call}
      (hholder : st.holder = some ⟨op, agenda, call⟩) (hagenda : Winding agenda)
      (hcall : ∀ run n q, call ≠ some (.inquire run n q))
      (hrest : st.memory.context.status ≠ .running)
  | gone (hop : op < st.nextOp) (hgone : op ∉ st.operations)

variable {s : Setup} {allows : State → Move → Prop} {st st' : State} {m : Move} {op : Nat}
  {log later : List Happening} {c : Context} {i : Instruction} {rest : List Instruction}
  {p : Performed}

theorem Winding.performs (h : Winding (i :: rest)) (hrest : c.status ≠ .running)
    (hp : Performs s c i p) :
    p.events = [] ∧ p.executed = none ∧
      ((∃ todo, p.outcome = .proceed todo ∧ Winding (todo ++ rest)) ∨ p.outcome = .stop) := by
  cases h with
  | visit run =>
    cases hp with
    | halts hstay => exact ⟨rfl, rfl, .inr rfl⟩
    | loses hturn hrunning => exact absurd hrunning hrest
    | exceeds hcomes | pauses hcomes | hurries hcomes | breaksOff hcomes =>
      exact absurd hcomes.running hrest
  | enter =>
    cases hp with
    | enters => exact ⟨rfl, rfl, .inl ⟨_, rfl, .visit _⟩⟩

theorem State.windsUp_of_makes {agenda : List Instruction} {call : Option Call}
    (hnumbered : st.Numbered) (hholder : st.holder = some ⟨op, agenda, call⟩)
    (hagenda : Winding agenda) (hcall : ∀ run n q, call ≠ some (.inquire run n q))
    (hrest : st.memory.context.status ≠ .running) (hrestore : ∀ c, m ≠ .restore c)
    (hnext : st.nextOp ≤ st'.nextOp) (hmakes : Makes s st m st' log) :
    st'.WindsUp op ∧ ∀ r, .called op r ∉ log := by
  have hlt : op < st.nextOp := hnumbered.holder_lt hholder
  cases hmakes with
  | passes hmemory hsame hlog =>
    refine ⟨.holds (hsame.trans hholder) hagenda hcall (by rwa [hmemory]), fun r hr => ?_⟩
    cases hlog _ hr with
    | shows hm hcontent => exact absurd hlt (Nat.lt_irrefl _)
  | opens hnone => simp [hholder] at hnone
  | hears hbefore hmemory hafter =>
    obtain ⟨rfl, rfl, rfl⟩ := Holder.mk.inj (Option.some.inj (hholder.symm.trans hbefore))
    exact ⟨.holds hafter hagenda (by simp) (by rwa [hmemory]), by simp⟩
  | learns hbefore =>
    obtain ⟨rfl, rfl, rfl⟩ := Holder.mk.inj (Option.some.inj (hholder.symm.trans hbefore))
    exact absurd rfl (hcall _ _ _)
  | breaks hbefore hmemory hafter hgone =>
    obtain ⟨rfl, rfl, rfl⟩ := Holder.mk.inj (Option.some.inj (hholder.symm.trans hbefore))
    exact ⟨.gone (by omega) hgone, by simp⟩
  | ends hbefore hmemory hafter hgone =>
    obtain ⟨rfl, rfl, rfl⟩ := Holder.mk.inj (Option.some.inj (hholder.symm.trans hbefore))
    exact ⟨.gone (by omega) hgone, by simp⟩
  | acts hbefore =>
    obtain ⟨rfl, rfl, rfl⟩ := Holder.mk.inj (Option.some.inj (hholder.symm.trans hbefore))
    rename_i i rest
    obtain ⟨hevents, hexecuted, houtcome⟩ :=
      hagenda.performs hrest (perform_performs (s := s) i)
    have hcontext : (st.memory.after (s.perform st.memory.context i)).context =
        st.memory.context := by
      simp [Memory.after, hevents]
    rcases houtcome with ⟨todo, houtcome, htodo⟩ | houtcome
    · simp only [State.carryOut, houtcome]
      refine ⟨.holds rfl htodo (by simp) (by rwa [hcontext]), fun r hr => ?_⟩
      simp [Memory.log, hevents, hexecuted, Memory.applyAll] at hr
    · simp only [State.carryOut, houtcome]
      refine ⟨.holds rfl .over (by simp) (by rwa [hcontext]), fun r hr => ?_⟩
      simp [Memory.log, hevents, hexecuted, Memory.applyAll] at hr
  | resets hmemory hsame =>
    refine ⟨.holds (hsame.trans hholder) hagenda hcall ?_, by simp⟩
    simp [hmemory, Memory.reset, Context.initial]
  | restores => exact absurd rfl (hrestore _)

/-- An operation that winds up makes no call any more, whatever the session goes through, as long as
no saved context is adopted while it holds the session. -/
theorem Course.windsUp (hallows : ∀ st c, allows st (.restore c) → st.holder = none)
    (course : Course s allows {} log st) (h : st.WindsUp op)
    (course' : Course s allows st later st') : st'.WindsUp op ∧ ∀ r, .called op r ∉ later := by
  induction course' with
  | refl => exact ⟨h, by simp⟩
  | @tail later st₁ course' m hm ih =>
    obtain ⟨hwinds, hsilent⟩ := ih
    have hwhole := course.trans course'
    have hstep : (st₁.step s m).1.WindsUp op ∧ ∀ r, .called op r ∉ (st₁.step s m).2 := by
      cases hwinds with
      | holds hholder hagenda hcall hrest =>
        refine State.windsUp_of_makes (hwhole.numbered State.numbered_new) hholder hagenda hcall
          hrest ?_ (State.nextOp_le_step s st₁ m) (hwhole.makes m)
        rintro c rfl
        exact absurd (hallows st₁ c hm) (by simp [hholder])
      | gone hop hgone =>
        obtain ⟨hgone', hnone⟩ := hwhole.silent_of_not_mem (.single m hm) hop hgone
        have hnext := State.nextOp_le_step s st₁ m
        exact ⟨.gone (by omega) hgone', fun r hr => hnone _ hr rfl⟩
    refine ⟨hstep.1, fun r hr => ?_⟩
    rcases List.mem_append.mp hr with hr | hr
    · exact hsilent r hr
    · exact hstep.2 r hr

end ChatFlow.Session
