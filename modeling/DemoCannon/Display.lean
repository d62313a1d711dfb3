import DemoCannon.Completion
import DemoCannon.Connection
import DemoCannon.Dues

/-! # The operator's display converges

    The operator sees the state of the last `MT_STATE` on the connection.  The argument
    of `SendSystemState` is read before `TCP_Mutex` is locked, so the state that a
    thread puts on the connection may be out of date, and nobody may be left to send a
    newer one (`stale_display`).  Where no thread puts one there that is out of date,
    unless another has still to send, the display is right whenever the threads are at
    rest (`display_converges`). -/

namespace DemoCannon

open Interaction Interaction.Program SystemState

/-! ## What is shown, and who has still to send -/

namespace Link

/-- The state of the last `MT_STATE`: what a client shows that has processed the
    frames. -/
def shown (frames : List Bytes) : Option SystemState := (frames.filterMap stateOf).getLast?

/-- The frame that a step puts on the connection, if it is an `MT_STATE`, by its thread
    and its state. -/
def announces (h : List (Link × Tick)) (l : Link) : Tick → Option (Tid × SystemState)
  | .sslWrite i r =>
      if l.answers i = [] then
        ((l.note (.sslWrite i r) (sections h)).head?.bind stateOf).map (i, ·)
      else none
  | _ => none

/-- The thread that reads and writes the server's data. -/
def Tick.accessBy : Tick → Option Tid
  | .process (.step (.atom i)) => some i
  | _ => none

/-- The thread has changed `SystemState`, and put no `MT_STATE` on the connection
    since. -/
def Owes : List (Link × Tick) → Link → Tid → Prop
  | [], _, _ => False
  | (l, a) :: h, l', i =>
      a.accessBy = some i ∧ l'.process.server.systemState ≠ l.process.server.systemState
        ∨ Owes h l i ∧ (announces h l a).map Prod.fst ≠ some i

/-- `CleanUp` has not begun, and an `MT_STATE` is put on the connection only if its state
    is that of the server, or if another thread that has changed the state has still to
    send one. -/
structure Timely (h : List (Link × Tick)) (l : Link) (a : Tick) : Prop where
  closing : ¬ l.process.phase.Closing
  controlC : a ≠ .process .controlC
  state (i : Tid) (state : SystemState) : announces h l a = some (i, state) →
    state = l.process.server.systemState ∨ ∃ j, j ≠ i ∧ Owes h l j

end Link

/-- No thread is inside a handler, a `ProcessTargetEngagements` or an engagement. -/
structure Process.AtRest (P : Platform) (p : Process) : Prop where
  network (rest : Prog Bool) : p.pool.threads .network = .running rest → ¬ InHandler P rest
  main (rest : Prog Bool) : p.pool.threads .main = .running rest → ¬ InEngagements rest
  engagement : p.server.engagement.Outside

/-! ## The server's side -/

theorem EngagementPc.Outside.not_mayOwe {pc : EngagementPc} (h : pc.Outside) :
    ¬ pc.MayOwe := by
  cases pc with
  | wait | waiting | unlock => exact id
  | _ => exact h.elim

namespace Process

variable {P : Platform} {p q : Process} {a : Tick} {d : Tid → Dues} {w : Tid → Sending}

/-- **At rest nobody owes a state.** -/
theorem Paying.at_rest (hp : p.Paying P d) (hrest : p.AtRest P) (i : Tid) :
    (d i).owes = false := by
  refine Bool.eq_false_iff.mpr fun howes => ?_
  by_cases hrunning : ∃ rest, p.pool.threads i = .running rest
  · obtain ⟨rest, hi⟩ := hrunning
    have hduty := (hp.duty i rest hi).now
    cases i with
    | network => exact hrest.network rest hi (hduty howes)
    | main => exact hrest.main rest hi (hduty howes)
    | heartBeat => cases howes.symm.trans hduty
    | engagement =>
        have hmay : (d .engagement).seen.MayOwe := hduty howes
        rcases hp.place with hplace | ⟨hwaiting, -⟩
        · rw [← hplace] at hmay
          exact hrest.engagement.not_mayOwe hmay
        · rw [hwaiting] at hmay
          exact hmay
  · cases howes.symm.trans (hp.idle i fun rest h => hrunning ⟨rest, h⟩)

/-- Only a thread that reads and writes the server's data changes the state. -/
theorem Step.word (hst : Step P p a q) :
    q.server.systemState = p.server.systemState ∨ ∃ i, a = .step (.atom i) := by
  cases hst with
  | step hrun hst =>
      cases hst with
      | @atom i f k hi => exact Or.inr ⟨i, rfl⟩
      | call r hi hlocks => exact Or.inl rfl
  | goOn input hrun hi hq =>
      left
      rw [(goOn_frame hq).1]
  | @joined cause i hrun hphase hi => cases i <;> exact Or.inl rfl
  | halt hrun hi | heartBeat hrun hcreated hi | spuriousWakeup hrun hi hwaiting
  | controlC hrun hjoining hoff | cancelled hrun hphase => exact Or.inl rfl

/-- Outside a step of a program nobody comes to owe anything. -/
theorem dues_elsewhere (ha : ∀ l, a ≠ .step l) (i : Tid) :
    (p.dues d a i).owes = (d i).owes ∧ (p.dues d a i).fresh = (d i).fresh := by
  cases a with
  | step l => exact absurd rfl (ha l)
  | halt | heartBeat | spuriousWakeup | controlC | cancelled | joined => exact ⟨rfl, rfl⟩
  | goOn j =>
      cases j with
      | network | engagement | heartBeat => exact ⟨rfl, rfl⟩
      | main =>
          change (Function.update d .main { d .main with early := false } i).owes = _
            ∧ (Function.update d .main { d .main with early := false } i).fresh = _
          by_cases hi : i = .main
          · subst hi
            rw [Function.update_self]
            exact ⟨rfl, rfl⟩
          · rw [Function.update_of_ne hi]
            exact ⟨rfl, rfl⟩

/-- Outside a write nobody ceases to. -/
theorem dues_owes (hst : Step P p a q)
    (ha : ∀ i data script, a ≠ .step (.call i (.sslWrite data) script)) {i : Tid}
    (hi : (d i).owes = true) : (p.dues d a i).owes = true := by
  cases hst with
  | @step l pool hrun hst =>
      by_cases hil : i = l.thread
      · cases hst with
        | @atom j f k hj =>
            obtain rfl : i = j := hil
            rw [dues_atom hj, Function.update_self, Dues.atom, hi]
            rfl
        | @call j c k locks r hj hlocks =>
            obtain rfl : i = j := hil
            rw [dues_call, Function.update_self]
            cases c with
            | sslWrite data => exact absurd rfl (ha i data r)
            | lock m | unlock m => cases m <;> exact hi
            | sslRead | auditLine | condSignal | pthreadCreate | fopenIni | fopenLog | never =>
                exact hi
      · rw [dues_of_ne hil]
        exact hi
  | halt | heartBeat | spuriousWakeup | controlC | cancelled | joined | goOn =>
      exact (dues_elsewhere (by rintro l ⟨⟩) i).1.trans hi

/-- Outside a step of a program the monitors of the writes stay, until `CleanUp`. -/
theorem advance_elsewhere (hst : Step P p a q) (ha : ∀ l, a ≠ .step l)
    (hclosing : ¬ p.phase.Closing) : p.advance sendingWatch .closed w a = w := by
  cases hst with
  | step hrun hst => exact absurd rfl (ha _)
  | joined hrun hphase hi =>
      rw [hphase] at hclosing
      exact absurd trivial hclosing
  | halt | heartBeat | spuriousWakeup | controlC | cancelled | goOn => rfl

/-- A thread that has written nothing since it locked `TCP_Mutex` is known for one to the
    monitor of the writes as well. -/
theorem Senders.fresh (hp : p.Senders w) (hst : Step P p a q) (hclosing : ¬ p.phase.Closing)
    (hfresh : ∀ i, (d i).fresh = true → w i = .fresh) (i : Tid)
    (hi : (p.dues d a i).fresh = true) : p.advance sendingWatch .closed w a i = .fresh := by
  by_cases hstep : ∃ l, a = .step l
  · obtain ⟨l, rfl⟩ := hstep
    change p.pool.advance sendingWatch w l i = .fresh
    by_cases hil : i = l.thread
    · cases hst with
      | @step _ pool hrun hst =>
          cases hst with
          | @atom j f k hj =>
              obtain rfl : i = j := hil
              rw [dues_atom hj, Function.update_self] at hi
              rw [Pool.advance_atom hj, Function.update_self]
              exact hfresh i hi
          | @call j c k locks r hj hlocks =>
              obtain rfl : i = j := hil
              obtain ⟨v, hcall, -⟩ := hp.guarded.watched.of_running hj (by rintro _ ⟨⟩) r trivial
              rw [dues_call, Function.update_self] at hi
              rw [Pool.advance_call hcall, Function.update_self]
              have hother : v = w i → (d i).fresh = true → v = .fresh :=
                fun hv h => hv.trans (hfresh i h)
              cases c with
              | lock m =>
                  cases m with
                  | tcp => exact (Sending.lock_spec hcall).2
                  | gpio | i2c | engmnt =>
                      refine hother (Option.some.inj (hcall.symm.trans ?_)) hi
                      exact Sending.lock_other (by decide) (w i)
              | unlock m =>
                  cases m with
                  | tcp => cases hi
                  | gpio | i2c | engmnt =>
                      refine hother (Option.some.inj (hcall.symm.trans ?_)) hi
                      exact Sending.unlock_other (by decide) (w i)
              | sslWrite data => cases hi
              | sslRead | auditLine | condSignal | pthreadCreate | fopenIni | fopenLog
              | never => exact hother (Option.some.inj hcall).symm hi
    · rw [dues_of_ne hil] at hi
      rw [Pool.advance_of_ne hil]
      exact hfresh i hi
  · have ha : ∀ l, a ≠ .step l := fun l h => hstep ⟨l, h⟩
    rw [advance_elsewhere hst ha hclosing]
    exact hfresh i ((dues_elsewhere ha i).2.symm.trans hi)

/-- Where `CleanUp` begins without Control-C, `main` has left its loop. -/
theorem Step.loop_left (hst : Step P p a q) (hclosing : ¬ p.phase.Closing)
    (ha : a ≠ .controlC) (hq : q.phase.Closing) :
    ∃ again, q.pool.threads .main = .running (.ret again) := by
  cases hst with
  | step hrun hst | halt hrun hi | heartBeat hrun hcreated hi
  | spuriousWakeup hrun hi hwaiting | cancelled hrun hphase => exact absurd hq hclosing
  | controlC hrun hjoining hoff => exact absurd rfl ha
  | joined hrun hphase hi =>
      rw [hphase] at hclosing
      exact absurd trivial hclosing
  | @goOn i again _ input hrun hi hgoes =>
      cases i with
      | main =>
          rw [Process.goOn] at hgoes
          split at hgoes
          · cases hgoes; exact hq.elim
          · cases hgoes; exact hq.elim
          · cases hgoes; exact hq.elim
          · split at hgoes
            · cases hgoes; exact absurd hq hclosing
            · cases hgoes; exact ⟨again, hi⟩
          · cases hgoes
          · cases hgoes; exact absurd hq hclosing
      | network =>
          rw [Process.goOn] at hgoes
          split at hgoes <;> cases hgoes <;> exact absurd hq hclosing
      | engagement =>
          rw [Process.goOn] at hgoes
          split at hgoes
          · cases hgoes
          · cases hgoes; exact absurd hq hclosing
      | heartBeat => cases hgoes; exact absurd hq hclosing

/-- A thread that is in a write after a step has been in it before, or has come to it
    from no write. -/
theorem Senders.writing (hp : p.Senders w) (hst : Step P p a q)
    (hclosing : ¬ p.phase.Closing) (hcontrolC : a ≠ .controlC)
    (ha : ∀ i data script, a ≠ .step (.call i (.sslWrite data) script)) {i : Tid} {data : Bytes}
    (hi : q.writing i = some data) :
    p.Live i ∧ (p.writing i = some data ∧ (p.dues d a i).fresh = (d i).fresh
      ∨ p.writing i = none) := by
  have hlive : q.Live i := by
    refine ⟨?_, ?_⟩
    · intro h
      rw [Process.writing, h] at hi
      cases hi
    · rintro rfl h
      obtain ⟨again, hmain⟩ := hst.loop_left hclosing hcontrolC h
      rw [Process.writing, hmain] at hi
      cases hi
  by_cases hstep : ∃ l, a = .step l
  · obtain ⟨l, rfl⟩ := hstep
    cases hst with
    | @step _ pool hrun hst =>
        refine ⟨(live_iff hst).mp hlive, ?_⟩
        by_cases hil : i = l.thread
        · right
          cases hst with
          | @atom j f k hj =>
              obtain rfl : i = j := hil
              rw [Process.writing, hj]
          | @call j c k locks r hj hlocks =>
              obtain rfl : i = j := hil
              refine writing_of_call hj ?_
              rintro data rfl
              exact ha i data r rfl
        · left
          rw [dues_of_ne hil]
          exact ⟨(writing_of_ne hst hil).symm.trans hi, rfl⟩
  · have ha : ∀ l, a ≠ .step l := fun l h => hstep ⟨l, h⟩
    obtain ⟨hbefore, hsame | hnone⟩ := hp.before hst ha hlive
    · exact ⟨hbefore, Or.inl ⟨hsame.symm.trans hi, (dues_elsewhere ha i).2⟩⟩
    · exact ⟨hbefore, Or.inr hnone⟩

end Process

/-! ## The invariant -/

theorem length_of_stateOf {f : Bytes} {state : SystemState} (h : stateOf f = some state) :
    f.length = sizeofHeader + 4 := by
  rw [stateOf] at h
  split at h
  · rename_i hf
    exact hf.1
  · cases h

/-- Before a write there is nothing, or a header. -/
theorem Sending.stateOf_content {w v : Sending} {data : Bytes} (hw : w.Sound)
    (h : w.write data = some v) : stateOf w.content = none := by
  refine Option.eq_none_iff_forall_ne_some.mpr fun state hstate => ?_
  have hlen := length_of_stateOf hstate
  cases w with
  | fresh => cases hlen
  | part f => cases (show f.length = sizeofHeader from hw).symm.trans hlen
  | outside | whole f | failed | closed => cases h

namespace Link

variable {P : Platform} {l l' : Link} {a : Tick} {h : List (Link × Tick)}
  {w : Tid → Sending} {d : Tid → Dues} {i : Tid}

/-- Where a step takes the monitors of what is owed. -/
def dues (l : Link) (d : Tid → Dues) (a : Tick) : Tid → Dues :=
  match l.serverTick a with
  | some b => l.process.dues d b
  | none => d

/-- The thread is putting an `MT_STATE` on the connection, and a part of it is there. -/
def Putting (l : Link) (d : Tid → Dues) (i : Tid) : Prop :=
  (d i).fresh = true ∧ l.answers i ≠ []
    ∧ ∃ data state, l.process.writing i = some data ∧ stateOf data = some state

/-- **The invariant.**  The last state on the connection is the server's, unless a thread
    has still to send. -/
structure Displays (P : Platform) (h : List (Link × Tick)) (l : Link) (w : Tid → Sending)
    (d : Tid → Dues) : Prop where
  carries : l.process.Carries l.answers w (sections h) (put h)
  paying : l.process.Paying P d
  fresh (i : Tid) : (d i).fresh = true → w i = .fresh
  owes (i : Tid) : Owes h l i → (d i).owes = true ∧ ¬ l.Putting d i
  shown (state : SystemState) : (sections h).findSome? stateOf = some state →
    state = l.process.server.systemState ∨ ∃ i, Owes h l i

/-- A step is one of the server, or leaves it alone. -/
theorem Step.server (hst : Step P l a l') :
    (∃ b, l.serverTick a = some b ∧ Process.Step P l.process b l'.process)
      ∨ l.serverTick a = none ∧ l'.process = l.process := by
  cases hst with
  | process ha hst => exact Or.inl ⟨_, rfl, hst⟩
  | @written i data q hdone hst =>
      refine Or.inl ⟨_, ?_, hst⟩
      cases hst with
      | step hrun hst =>
          cases hst with
          | call r hi hlocks => rw [serverTick, Process.writing, hi]; rfl
  | sslWrite | sslRead | wantRead | noBytes | stop => exact Or.inr ⟨rfl, rfl⟩

theorem eq_of_accessBy (ha : a.accessBy = some i) : a = .process (.step (.atom i)) := by
  cases a with
  | process b =>
      cases b with
      | step l =>
          cases l with
          | atom j => cases ha; rfl
          | call j c r => cases ha
      | halt | goOn | heartBeat | spuriousWakeup | controlC | cancelled | joined => cases ha
  | sslWrite | written | sslRead | wantRead | noBytes | stop => cases ha

/-- A thread owes what it has owed, unless it sends. -/
theorem Owes.later (howes : Owes h l i) (ha : (announces h l a).map Prod.fst ≠ some i) :
    Owes ((l, a) :: h) l' i := Or.inr ⟨howes, ha⟩

theorem Displays.owes_process (hd : Displays P h l w d) {a : DemoCannon.Tick} {q : Process}
    (ha : ∀ i data script, a ≠ .step (.call i (.sslWrite data) script))
    (hst : Process.Step P l.process a q) (ht : Timely h l (.process a))
    (howes : Owes ((l, .process a) :: h) { l with process := q } i) :
    (l.process.dues d a i).owes = true
      ∧ ¬ Putting { l with process := q } (l.process.dues d a) i := by
  constructor
  · rcases howes with ⟨hby, hchanged⟩ | ⟨hold, -⟩
    · cases eq_of_accessBy hby
      cases hst with
      | step hrun hst =>
          cases hst with
          | @atom i f k hi =>
              have hne : (f l.process.server).systemState ≠ l.process.server.systemState :=
                hchanged
              rw [Process.dues_atom hi, Function.update_self]
              simp [Dues.atom, hne]
    · exact Process.dues_owes hst ha (hd.owes i hold).1
  · rintro ⟨hfresh, hanswers, data, state, hwriting, hstate⟩
    obtain ⟨hlive, ⟨hbefore, hsame⟩ | hnone⟩ := hd.carries.senders.writing (d := d) hst
      ht.closing (fun h => ht.controlC (by rw [h])) ha hwriting
    · rcases howes with ⟨hby, -⟩ | ⟨hold, -⟩
      · -- a thread that is in a write reads and writes nothing
        cases eq_of_accessBy hby
        cases hst with
        | step hrun hst =>
            cases hst with
            | @atom i f k hi =>
                rw [Process.writing, hi] at hbefore
                cases hbefore
      · exact (hd.owes i hold).2 ⟨hsame.symm.trans hfresh, hanswers, data, state, hbefore, hstate⟩
    · exact hanswers (hd.carries.between i hlive hnone)

theorem Displays.owes_written (hd : Displays P h l w d) {j : Tid} {data : Bytes} {q : Process}
    (hdone : DemoCannon.written data.length (l.answers j) = data.length)
    (hst : Process.Step P l.process (.step (.call j (.sslWrite data) (l.answers j))) q)
    (howes : Owes h l i) :
    (l.process.dues d (.step (.call j (.sslWrite data) (l.answers j))) i).owes = true
      ∧ ¬ Putting { l with process := q, answers := Function.update l.answers j [] }
        (l.process.dues d (.step (.call j (.sslWrite data) (l.answers j)))) i := by
  obtain ⟨hbefore, hnot⟩ := hd.owes i howes
  change (Function.update d j ((d j).call (.sslWrite data)) i).owes = true
    ∧ ¬ Putting _ (Function.update d j ((d j).call (.sslWrite data))) i
  cases hst with
  | step hrun hst =>
      by_cases hij : i = j
      · subst hij
        cases hst with
        | call _ hi hlocks =>
            have hwriting : l.process.writing i = some data := by rw [Process.writing, hi]
            have hother : (d i).fresh = true → stateOf data = none := by
              intro hfresh
              refine Option.eq_none_iff_forall_ne_some.mpr fun state hstate => ?_
              refine hnot ⟨hfresh, ?_, data, state, hwriting, hstate⟩
              intro hanswers
              rw [hanswers, length_of_stateOf hstate] at hdone
              cases hdone
            rw [Function.update_self]
            refine ⟨?_, ?_⟩
            · cases hfresh : (d i).fresh with
              | false => simp [Dues.call, hbefore, hfresh]
              | true => simp [Dues.call, hbefore, hother hfresh]
            · rintro ⟨hfresh, -⟩
              rw [Function.update_self] at hfresh
              cases hfresh
      · rw [Function.update_of_ne hij]
        refine ⟨hbefore, ?_⟩
        rintro ⟨hfresh, hanswers, data', state, hwriting, hstate⟩
        rw [Function.update_of_ne hij] at hfresh
        change Function.update l.answers j [] i ≠ [] at hanswers
        rw [Function.update_of_ne hij] at hanswers
        refine hnot ⟨hfresh, hanswers, data', state, ?_, hstate⟩
        exact (Process.writing_of_ne hst hij).symm.trans hwriting

/-- The newest section when a thread writes to it. -/
theorem Displays.newest (hd : Displays P h l w d) {data : Bytes}
    (hi : l.process.writing i = some data) (hanswers : l.answers i = []) (r : SslRet) :
    ∃ v olds, (w i).write data = some v ∧ (w i).Sound ∧ sections h = (w i).content :: olds
      ∧ l.note (.sslWrite i r) (sections h) = ((w i).content ++ data) :: olds := by
  obtain ⟨k, hk⟩ := writing_iff hi
  obtain ⟨hlive, v, hv⟩ := carries_writing hd.carries hk
  obtain ⟨olds, hsections, -⟩ := hd.carries.held i hlive (Sending.write_spec hv).1
  rw [hanswers, started_nil, List.append_nil] at hsections
  refine ⟨v, olds, hv, hd.carries.sound i hlive, hsections, ?_⟩
  rw [note, hi, hanswers, hsections]
  rfl

theorem Displays.owes_sslWrite (hd : Displays P h l w d) {j : Tid} {r : SslRet} {data : Bytes}
    (hj : l.process.writing j = some data) {connection : Bytes}
    (howes : Owes h l i) (hno : (announces h l (.sslWrite j r)).map Prod.fst ≠ some i) :
    ¬ Putting { l with
      answers := Function.update l.answers j (l.answers j ++ [r])
      connection := connection } d i := by
  rintro ⟨hfresh, hanswers, data', state, hwriting, hstate⟩
  change Function.update l.answers j _ i ≠ [] at hanswers
  by_cases hij : i = j
  · subst hij
    by_cases hnil : l.answers i = []
    · -- its first bytes are those of the frame
      obtain ⟨v, olds, hv, hsound, hsections, hnote⟩ := hd.newest hj hnil r
      obtain rfl : data = data' := Option.some.inj (hj.symm.trans hwriting)
      rw [hd.fresh i hfresh] at hnote
      rw [announces, if_pos hnil, hnote] at hno
      refine hno ?_
      change (Option.map (fun state => (i, state)) (stateOf data)).map Prod.fst = some i
      rw [hstate]
      rfl
    · exact (hd.owes i howes).2 ⟨hfresh, hnil, data', state, hwriting, hstate⟩
  · rw [Function.update_of_ne hij] at hanswers
    exact (hd.owes i howes).2 ⟨hfresh, hanswers, data', state, hwriting, hstate⟩

/-- Only a thread that reads and writes the server's data changes the state. -/
theorem Step.word (hst : Step P l a l') :
    l'.process.server.systemState = l.process.server.systemState
      ∨ ∃ i, a.accessBy = some i := by
  cases hst with
  | process ha hst =>
      rcases hst.word with h | ⟨i, rfl⟩
      · exact Or.inl h
      · exact Or.inr ⟨i, rfl⟩
  | written hdone hst =>
      rcases hst.word with h | ⟨i, h⟩
      · exact Or.inl h
      · cases h
  | sslWrite | sslRead | wantRead | noBytes | stop => exact Or.inl rfl

theorem findSome?_of_head? {fs : List Bytes} {state : SystemState}
    (hfs : fs.head?.bind stateOf = some state) : fs.findSome? stateOf = some state := by
  cases fs with
  | nil => cases hfs
  | cons f fs => rw [List.findSome?_cons, show stateOf f = some state from hfs]

/-- What is announced is what is then shown. -/
theorem findSome?_of_announces {state : SystemState}
    (ha : announces h l a = some (i, state)) :
    (l.note a (sections h)).findSome? stateOf = some state := by
  cases a with
  | sslWrite j r =>
      rw [announces] at ha
      split at ha
      · obtain ⟨state, hhead, heq⟩ := Option.map_eq_some_iff.mp ha
        cases heq
        exact findSome?_of_head? hhead
      · cases ha
  | process | written | sslRead | wantRead | noBytes | stop => cases ha

/-- With nothing announced the same is shown as before. -/
theorem Displays.findSome?_note (hd : Displays P h l w d) (hst : Step P l a l')
    (ha : announces h l a = none) :
    (l.note a (sections h)).findSome? stateOf = (sections h).findSome? stateOf := by
  cases hst with
  | written | sslRead | wantRead | noBytes | stop => rfl
  | @process b q hb hst =>
      rw [note]
      split
      · exact List.findSome?_cons_of_isNone (by rfl)
      · rfl
  | @sslWrite j r data hrun hj hmore hr =>
      by_cases hnil : l.answers j = []
      · obtain ⟨v, olds, hv, hsound, hsections, hnote⟩ := hd.newest hj hnil r
        rw [announces, if_pos hnil, hnote] at ha
        have hnew : stateOf ((w j).content ++ data) = none := Option.map_eq_none_iff.mp ha
        rw [hnote, hsections, List.findSome?_cons, List.findSome?_cons, hnew,
          Sending.stateOf_content hsound hv]
      · obtain ⟨r', rs, hcons⟩ := List.exists_cons_of_ne_nil hnil
        rw [note, hj, hcons]
        rfl

theorem Displays.shown_step (hd : Displays P h l w d) (hst : Step P l a l')
    (ht : Timely h l a) {state : SystemState}
    (hstate : (l.note a (sections h)).findSome? stateOf = some state) :
    state = l'.process.server.systemState ∨ ∃ i, Owes ((l, a) :: h) l' i := by
  rcases hann : announces h l a with _ | ⟨i, state'⟩
  · rw [hd.findSome?_note hst hann] at hstate
    have hlater : ∀ {i}, Owes h l i → Owes ((l, a) :: h) l' i := fun howes =>
      howes.later (by rw [hann]; rintro ⟨⟩)
    rcases hd.shown state hstate with heq | ⟨i, howes⟩
    · by_cases hsame : l'.process.server.systemState = l.process.server.systemState
      · exact Or.inl (heq.trans hsame.symm)
      · obtain ⟨i, hi⟩ := hst.word.resolve_left hsame
        exact Or.inr ⟨i, Or.inl ⟨hi, hsame⟩⟩
    · exact Or.inr ⟨i, hlater howes⟩
  · rw [findSome?_of_announces hann] at hstate
    cases hstate
    have hno : ¬ ∃ j, a.accessBy = some j := by
      rintro ⟨j, hj⟩
      rw [eq_of_accessBy hj] at hann
      cases hann
    rcases ht.state i state hann with heq | ⟨j, hji, howes⟩
    · exact Or.inl (heq.trans (hst.word.resolve_right hno).symm)
    · refine Or.inr ⟨j, howes.later ?_⟩
      rw [hann]
      exact fun h => hji (Option.some.inj h).symm

theorem Displays.owes_step (hd : Displays P h l w d) (hst : Step P l a l')
    (ht : Timely h l a) (howes : Owes ((l, a) :: h) l' i) :
    (l.dues d a i).owes = true ∧ ¬ l'.Putting (l.dues d a) i := by
  cases hst with
  | process ha hst => exact hd.owes_process ha hst ht howes
  | written hdone hst =>
      rcases howes with ⟨⟨⟩, -⟩ | ⟨hold, -⟩
      have hserver := hst
      cases hst with
      | step hrun hst =>
          cases hst with
          | call r hi hlocks =>
              rw [dues, serverTick, Process.writing, hi]
              exact hd.owes_written hdone hserver hold
  | sslWrite hrun hj hmore hr =>
      rcases howes with ⟨⟨⟩, -⟩ | ⟨hold, hno⟩
      exact ⟨(hd.owes i hold).1, hd.owes_sslWrite hj hold hno⟩
  | sslRead | wantRead | noBytes | stop =>
      rcases howes with ⟨⟨⟩, -⟩ | ⟨hold, -⟩
      exact hd.owes i hold

/-- **The step lemma.** -/
theorem Displays.step (hd : Displays P h l w d) (hst : Step P l a l') (ht : Timely h l a) :
    Displays P ((l, a) :: h) l' (l.advance w a) (l.dues d a) := by
  have hserver : l'.process.Paying P (l.dues d a)
      ∧ ∀ i, (l.dues d a i).fresh = true → l.advance w a i = .fresh := by
    rw [dues, advance]
    rcases hst.server with ⟨b, hb, hstep⟩ | ⟨hb, hsame⟩
    · rw [hb]
      refine ⟨hd.paying.step hd.carries.senders.guarded.watched hstep ?_ ht.closing,
        hd.carries.senders.fresh hstep ht.closing hd.fresh⟩
      rintro rfl
      cases a with
      | process a => cases hb; exact ht.controlC rfl
      | written j =>
          rw [serverTick] at hb
          cases hj : l.process.writing j with
          | none => rw [hj] at hb; cases hb
          | some data => rw [hj] at hb; cases hb
      | sslWrite | sslRead | wantRead | noBytes | stop => cases hb
    · rw [hb, hsame]
      exact ⟨hd.paying, hd.fresh⟩
  exact ⟨hst.carries hd.carries, hserver.1, hserver.2, fun i => hd.owes_step hst ht,
    fun state => hd.shown_step hst ht⟩

theorem displays_start (P : Platform) (c : Config) :
    Displays P [] (start (accepted c)) (fun _ => .outside)
      fun i => { early := decide (i = .main) } where
  carries := (Process.senders_accepted P c).carries rfl
  paying := Process.paying_accepted P c
  fresh _ h := by cases h
  owes _ h := h.elim
  shown _ h := by cases h

theorem displays_of_run {c : Config} (hr : Run (Step P) (start (accepted c)) h l)
    (ht : EveryStep (fun h l a _ => Timely h l a) h l) : ∃ w d, Displays P h l w d := by
  induction hr with
  | start => exact ⟨_, _, displays_start P c⟩
  | snoc _ hst ih =>
      obtain ⟨hlast, hbefore⟩ := ht
      obtain ⟨w, d, hd⟩ := ih hbefore
      exact ⟨_, _, hd.step hst hlast⟩

/-- What is shown is the state of the newest section with one. -/
theorem shown_sent (h : List (Link × Tick)) :
    shown (sent h) = (sections h).findSome? stateOf := by
  have hempty : ∀ f : Bytes, (if decide (f ≠ []) = true then stateOf f else none) = stateOf f := by
    intro f
    cases f with
    | nil => rfl
    | cons b f => rfl
  rw [shown, sent, List.filterMap_filter]
  simp only [hempty]
  rw [List.filterMap_reverse, List.getLast?_reverse, List.head?_filterMap]

end Link

/-- **The operator's display converges.**  In a run of the server with a client, in which
    `CleanUp` has not begun and no `MT_STATE` is put on the connection out of date unless
    another thread has still to send one, the last state on the connection is the server's
    whenever no thread is in a handler, in `ProcessTargetEngagements` or in an
    engagement; and so is the one that a client shows that has processed all frames. -/
theorem display_converges {P : Platform} {c : Config} {h : List (Link × Link.Tick)} {l : Link}
    (hr : Run (Link.Step P) (Link.start (accepted c)) h l)
    (ht : EveryStep (fun h l a _ => Link.Timely h l a) h l) (hrest : l.process.AtRest P)
    (hsent : (Link.shown (Link.sent h)).isSome) :
    Link.shown (Link.sent h) = some l.process.server.systemState
      ∧ (l.client.processed = Link.sent h →
        Link.shown l.client.processed = some l.process.server.systemState) := by
  obtain ⟨w, d, hd⟩ := Link.displays_of_run hr ht
  obtain ⟨state, hshown⟩ := Option.isSome_iff_exists.mp hsent
  have hnewest := hshown
  rw [Link.shown_sent] at hnewest
  have hstate : state = l.process.server.systemState := by
    rcases hd.shown state hnewest with heq | ⟨i, howes⟩
    · exact heq
    · cases (hd.paying.at_rest hrest i).symm.trans (hd.owes i howes).1
  rw [hstate] at hshown
  exact ⟨hshown, fun hall => hall ▸ hshown⟩

/-! ## Sessions in which the threads take turns -/

namespace Link

variable {P : Platform} {l₀ : Link} {x : List (Link × Tick) × Link}

/-- A thread goes on to its next round. -/
def goOn (P : Platform) (input : Input) (i : Tid) (x : List (Link × Tick) × Link) :
    List (Link × Tick) × Link :=
  match x.2.process.ended, x.2.process.pool.threads i with
  | none, .running (.ret again) =>
      match x.2.process.goOn P input i again with
      | some q => ((x.2, .process (.goOn i)) :: x.1, { x.2 with process := q })
      | none => x
  | _, _ => x

/-- At most `fuel` steps of a thread, to the end of its round. -/
def steps (P : Platform) (env : (c : Call) → Option c.Answer) (i : Tid) :
    Nat → List (Link × Tick) × Link → List (Link × Tick) × Link
  | 0, x => x
  | fuel + 1, x =>
      match x.2.process.pool.threads i, x.2.next P env i with
      | .running (.ret _), _ => x
      | _, none => x
      | _, some (a, l') => steps P env i fuel ((x.2, a) :: x.1, l')

/-- The session after a part of a round. -/
def take (P : Platform) (x : List (Link × Tick) × Link) (t : Process.Turn) :
    List (Link × Tick) × Link :=
  steps P t.env t.thread t.fuel (goOn P t.input t.thread x)

theorem run_goOn (input : Input) (i : Tid) (hr : Run (Step P) l₀ x.1 x.2) :
    Run (Step P) l₀ (goOn P input i x).1 (goOn P input i x).2 := by
  rw [goOn]
  split
  · rename_i again hrun hi
    split
    · rename_i q hq
      exact hr.snoc (.process (by rintro _ _ _ ⟨⟩) (.goOn input hrun hi hq))
    · exact hr
  · exact hr

theorem run_steps {env : (c : Call) → Option c.Answer} {i : Tid} (fuel : Nat)
    (hr : Run (Step P) l₀ x.1 x.2) :
    Run (Step P) l₀ (steps P env i fuel x).1 (steps P env i fuel x).2 := by
  induction fuel generalizing x with
  | zero => exact hr
  | succ fuel ih =>
      rw [steps]
      split
      · exact hr
      · exact hr
      · rename_i hn _
        exact ih (hr.snoc (step_of_next hn))

/-- Rounds that are taken in turns are a run. -/
theorem run_take (turns : List Process.Turn) (hr : Run (Step P) l₀ x.1 x.2) :
    Run (Step P) l₀ (turns.foldl (take P) x).1 (turns.foldl (take P) x).2 := by
  induction turns generalizing x with
  | nil => exact hr
  | cons t rest ih => exact ih (run_steps t.fuel (run_goOn t.input t.thread hr))

/-- Control-C is pressed. -/
def Tick.isControlC : Tick → Bool
  | .process .controlC => true
  | _ => false

/-- `CleanUp` has not begun, and every state was put on the connection while it was the
    server's. -/
def current : List (Link × Tick) → Bool
  | [] => true
  | (l, a) :: h =>
      !decide l.process.phase.Closing && !a.isControlC
        && (announces h l a).all (fun x => x.2 == l.process.server.systemState) && current h

theorem timely_of_current {h : List (Link × Tick)} {l : Link} (hcurrent : current h = true) :
    EveryStep (fun h l a _ => Timely h l a) h l := by
  induction h generalizing l with
  | nil => trivial
  | cons x h ih =>
      obtain ⟨p, a⟩ := x
      simp only [current, Bool.and_eq_true, Bool.not_eq_true', decide_eq_false_iff_not]
        at hcurrent
      obtain ⟨⟨⟨hclosing, ha⟩, hstate⟩, hrest⟩ := hcurrent
      refine ⟨⟨hclosing, ?_, ?_⟩, ih hrest⟩
      · rintro rfl
        cases ha
      · intro i state hann
        rw [hann] at hstate
        exact Or.inl (beq_iff_eq.mp hstate)

end Link

namespace Process

/-- The thread is between its rounds, or has not begun. -/
def isBetween (p : Process) (i : Tid) : Bool :=
  match p.pool.threads i with
  | .running (.ret _) => true
  | .notCreated => true
  | _ => false

theorem atRest_of_between {P : Platform} {p : Process} (hnetwork : p.isBetween .network = true)
    (hmain : p.isBetween .main = true) (hengagement : p.server.engagement.Outside) :
    p.AtRest P := by
  have hret : ∀ {i : Tid} {rest : Prog Bool}, p.isBetween i = true →
      p.pool.threads i = .running rest → ∃ again, rest = .ret again := by
    intro i rest hi hrest
    rw [isBetween, hrest] at hi
    cases rest with
    | ret again => exact ⟨again, rfl⟩
    | atom | call | exit => cases hi
  refine ⟨?_, ?_, hengagement⟩
  · rintro rest hrest ⟨handler, -, hin⟩
    obtain ⟨again, rfl⟩ := hret hnetwork hrest
    exact not_within_ret hin
  · rintro rest hrest ⟨f, sendbuff, hin⟩
    obtain ⟨again, rfl⟩ := hret hmain hrest
    exact not_within_ret hin

end Process

namespace Session

/-- The network thread receives and handles `m`. -/
def handles (m : Received) : Process.Turn := ⟨.network, sends m, { now := m.now }, 500⟩

/-- The client logs in, prearms and gives an order, and asks for `ENGAGE_AUTO`. -/
def toEngageAuto : List Process.Turn :=
  List.replicate 4 ⟨.main, smooth, {}, 100⟩ ++ ⟨.network, smooth, {}, 100⟩
    :: [login, prearm, order, request engageAuto].map handles

/-- After that `main` sees no target and is about to send the state; the network thread
    comes to `SAFE` and sends it; `main` goes on. -/
def safeMeanwhile : List Process.Turn :=
  let frame : Frame := { detectedMatches := [], width := 1920, height := 1080, now := 0 }
  toEngageAuto
    ++ [⟨.main, smooth, { frame := some frame }, 14⟩, handles (request safe),
      ⟨.main, smooth, {}, 100⟩]

/-- A session from the connection on. -/
def displayed (turns : List Process.Turn) : List (Link × Link.Tick) × Link :=
  turns.foldl (Link.take platform) ([], .start (accepted config))

theorem run_displayed (turns : List Process.Turn) :
    Run (Link.Step platform) (Link.start (accepted config)) (displayed turns).1
      (displayed turns).2 := Link.run_take turns .start

end Session

/-- The display follows a session up to `ENGAGE_AUTO`. -/
theorem display_converges_engageAuto :
    ∃ h l, Run (Link.Step Session.platform) (Link.start (accepted Session.config)) h l
      ∧ l.process.server.systemState = engageAuto
      ∧ Link.shown (Link.sent h) = some l.process.server.systemState
      ∧ (l.client.processed = Link.sent h →
        Link.shown l.client.processed = some l.process.server.systemState) := by
  have hend : Link.current (Session.displayed Session.toEngageAuto).1 = true
      ∧ (Session.displayed Session.toEngageAuto).2.process.isBetween .network = true
      ∧ (Session.displayed Session.toEngageAuto).2.process.isBetween .main = true
      ∧ (Session.displayed Session.toEngageAuto).2.process.server.engagement.Outside
      ∧ (Link.shown (Link.sent (Session.displayed Session.toEngageAuto).1)).isSome
      ∧ (Session.displayed Session.toEngageAuto).2.process.server.systemState = engageAuto := by
    decide +kernel
  have hr := Session.run_displayed Session.toEngageAuto
  generalize Session.displayed Session.toEngageAuto = x at hend hr
  obtain ⟨hcurrent, hnetwork, hmain, hengagement, hsent, hstate⟩ := hend
  exact ⟨_, _, hr, hstate, display_converges hr (Link.timely_of_current hcurrent)
    (Process.atRest_of_between hnetwork hmain hengagement) hsent⟩

/-- The server is in `SAFE`, and the operator is left with `ENGAGE_AUTO`. -/
theorem stale_display :
    ∃ h l, Run (Link.Step Session.platform) (Link.start (accepted Session.config)) h l
      ∧ l.process.AtRest Session.platform
      ∧ l.process.server.systemState = safe
      ∧ Link.shown (Link.sent h) = some engageAuto := by
  have hend : (Session.displayed Session.safeMeanwhile).2.process.isBetween .network = true
      ∧ (Session.displayed Session.safeMeanwhile).2.process.isBetween .main = true
      ∧ (Session.displayed Session.safeMeanwhile).2.process.server.engagement.Outside
      ∧ (Session.displayed Session.safeMeanwhile).2.process.server.systemState = safe
      ∧ Link.shown (Link.sent (Session.displayed Session.safeMeanwhile).1)
        = some engageAuto := by
    decide +kernel
  have hr := Session.run_displayed Session.safeMeanwhile
  generalize Session.displayed Session.safeMeanwhile = x at hend hr
  obtain ⟨hnetwork, hmain, hengagement, hstate, hshown⟩ := hend
  exact ⟨_, _, hr, Process.atRest_of_between hnetwork hmain hengagement, hstate, hshown⟩

end DemoCannon
