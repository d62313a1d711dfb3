import DemoCannon.Watch

/-! # What the functions write, access by access

    Which parts of the state an access may touch is known of the blocks
    (`blocks_accesses`, `stateBlocks_accesses`, `settingBlocks_accesses`), and so of
    every function that is built from them. -/

namespace DemoCannon

open Interaction Interaction.Program SystemState

variable {α : Type} {R : Server → Server → Prop}

theorem accesses_call (c : Call) : Accesses R (call c) := fun _ => trivial

theorem accesses_never : Accesses R (never : Prog α) := fun r => Empty.elim r

theorem accesses_writeDataTcp (data : Bytes) : Accesses R (Thread.writeDataTcp data) := by
  refine (accesses_call _).bind fun script => ?_
  change Accesses R (DemoCannon.writeDataTcp data.length script 0).leave
  cases DemoCannon.writeDataTcp data.length script 0 with
  | returned retval => exact .pure _
  | exited => exact .exit _
  | waiting => exact accesses_never

theorem accesses_printfSend (text : String) : Accesses R (printfSend text) := by
  have hdone : ∀ n : Int, Accesses R (do unlock .tcp; pure n) :=
    fun n => (accesses_call _).bind fun _ => .pure n
  refine (accesses_call _).bind fun _ => Accesses.ite ?_ (hdone _)
  refine (accesses_writeDataTcp _).bind fun _ => Accesses.ite (hdone _) ?_
  exact (accesses_writeDataTcp _).bind fun _ => Accesses.ite (hdone _) (hdone _)

theorem accesses_say (text : String) : Accesses R (say text) :=
  (accesses_printfSend text).bind fun _ => .pure ()

/-- A send of one word under the lock. -/
theorem accesses_sendWord (data : Bytes) : Accesses R (do
    lock .tcp
    let retval ← Thread.writeDataTcp data
    unlock .tcp
    pure retval) :=
  (accesses_call _).bind fun _ => (accesses_writeDataTcp data).bind fun _ =>
    (accesses_call _).bind fun _ => .pure _

theorem accesses_imageSection (sendbuff : Option Bytes) : Accesses R (do
    lock .tcp
    let _ ← tcpSendImageAsJpeg sendbuff
    unlock .tcp : Prog Unit) := by
  have hsend : Accesses R (tcpSendImageAsJpeg sendbuff) := by
    cases sendbuff with
    | none => exact .pure _
    | some sendbuff =>
        exact (accesses_writeDataTcp _).bind fun _ =>
          Accesses.ite (.pure _) (accesses_writeDataTcp _)
  exact (accesses_call _).bind fun _ => hsend.bind fun _ => accesses_call _

section Blocks

variable (hR : ∀ s t : Server, t.systemState = s.systemState ∧ t.settings = s.settings
  ∧ t.engagement = s.engagement → R s t)

include hR

/-- A write that leaves all three alone, and what comes after. -/
theorem accesses_write {f : Server → Server} {q : Unit → Prog α}
    (hf : ∀ s, (f s).systemState = s.systemState ∧ (f s).settings = s.settings
      ∧ (f s).engagement = s.engagement) (hq : Accesses R (q ())) :
    Accesses R (update f >>= q) :=
  (Accesses.update fun s => hR s _ (hf s)).bind fun _ => hq

theorem accesses_fetch {k : Server → Prog α} (h : ∀ s, Accesses R (k s)) :
    Accesses R (fetch >>= k) := .read (fun s => hR s s ⟨rfl, rfl, rfl⟩) h

theorem accesses_auditlog (msg : String) : Accesses R (auditlog msg) :=
  accesses_fetch hR fun _ => Accesses.ite (accesses_call _) (.pure _)

theorem accesses_oledUpdateStatus : Accesses R oledUpdateStatus := by
  refine accesses_fetch hR fun _ => Accesses.ite ?_ (.pure _)
  exact (accesses_call _).bind fun _ =>
    accesses_write hR (fun _ => ⟨rfl, rfl, rfl⟩) (accesses_call _)

theorem accesses_sendCurrentState : Accesses R sendCurrentState := by
  refine accesses_fetch hR fun s => ?_
  have hsend : Accesses R (sendSystemState s.systemState) :=
    (accesses_call _).bind fun _ => (accesses_oledUpdateStatus hR).bind fun _ =>
      (accesses_writeDataTcp _).bind fun _ => (accesses_call _).bind fun _ => .pure _
  exact hsend.bind fun _ => .pure _

theorem accesses_servoAngle (num : ServoNum) : Accesses R (servoAngle num) := by
  have hcommand : Accesses R (do
      update fun s => s.command num
      unlock .i2c : Prog Unit) :=
    accesses_write hR (fun _ => by cases num <;> exact ⟨rfl, rfl, rfl⟩) (accesses_call _)
  have hclamp : ∀ (angle : Rat) (text : String), Accesses R (do
      update fun s => s.setAngle angle num
      say text
      update fun s => s.command num
      unlock .i2c : Prog Unit) := by
    intro angle text
    refine accesses_write hR (fun _ => ?_) ((accesses_say text).bind fun _ => hcommand)
    cases num <;> exact ⟨rfl, rfl, rfl⟩
  refine (accesses_call _).bind fun _ => accesses_fetch hR fun s => ?_
  exact (hclamp _ _).ite ((hclamp _ _).ite hcommand)

theorem accesses_heartBeatRound : Accesses R heartBeatRound := by
  refine (accesses_call _).bind fun _ => (accesses_writeDataTcp _).bind fun _ => ?_
  refine (accesses_call _).bind fun _ => Accesses.ite ?_ (.pure _)
  exact accesses_write hR (fun _ => ⟨rfl, rfl, rfl⟩) (.pure _)

theorem blocks_accesses : Blocks fun _ p => Accesses R p where
  pure := .pure
  bind := .bind
  fetch := ⟨fun s => hR s s ⟨rfl, rfl, rfl⟩, fun _ => trivial⟩
  exit := .exit
  never := accesses_never
  call c _ := accesses_call c
  update _ hf := .update fun s => hR s _ (hf s)
  say := accesses_say
  sendCurrentState := accesses_sendCurrentState hR
  sendLoginState _ := accesses_sendWord _
  sendCamState _ := accesses_sendWord _
  servoAngle := accesses_servoAngle hR

end Blocks

section StateBlocks

variable (hR : ∀ s t : Server, t.settings = s.settings ∧ t.engagement = s.engagement → R s t)

include hR

/-- A write that leaves both alone, and what comes after. -/
theorem accesses_writeState {f : Server → Server} {q : Unit → Prog α}
    (hf : ∀ s, (f s).settings = s.settings ∧ (f s).engagement = s.engagement)
    (hq : Accesses R (q ())) : Accesses R (update f >>= q) :=
  (Accesses.update fun s => hR s _ (hf s)).bind fun _ => hq

/-- A flag of the state word that is set or cleared under the lock. -/
theorem accesses_flag {f g : Server → Server} (value : Bool)
    (hf : ∀ s, (f s).settings = s.settings ∧ (f s).engagement = s.engagement)
    (hg : ∀ s, (g s).settings = s.settings ∧ (g s).engagement = s.engagement) :
    Accesses R (do
      lock .gpio
      if value then update f else update g
      unlock .gpio : Prog Unit) := by
  refine (accesses_call _).bind fun _ => Accesses.ite ?_ ?_
  · exact accesses_writeState hR hf (accesses_call _)
  · exact accesses_writeState hR hg (accesses_call _)

/-- An output and its flag, switched under the lock. -/
theorem accesses_switch {f g k : Server → Server} (value : Bool) (msg : String)
    (hf : ∀ s, (f s).settings = s.settings ∧ (f s).engagement = s.engagement)
    (hg : ∀ s, (g s).settings = s.settings ∧ (g s).engagement = s.engagement)
    (hk : ∀ s, (k s).settings = s.settings ∧ (k s).engagement = s.engagement) :
    Accesses R (do
      lock .gpio
      if value then
        auditlog msg
        update f
      else update g
      update k
      unlock .gpio : Prog Unit) := by
  have hlog : Accesses R (auditlog msg) := accesses_auditlog (fun s t h => hR s t h.2) msg
  have hpin : Accesses R (do update k; unlock .gpio : Prog Unit) :=
    accesses_writeState hR hk (accesses_call _)
  refine (accesses_call _).bind fun _ => Accesses.ite ?_ ?_
  · exact hlog.bind fun _ => accesses_writeState hR hf hpin
  · exact accesses_writeState hR hg hpin

/-- **What leaves the settings and the place of `EngagementThread` alone.** -/
theorem stateBlocks_accesses (hsignal : ∀ s, R s s.signal) :
    StateBlocks fun _ p => Accesses R p := by
  have hΦ : Blocks fun _ p => Accesses R p := blocks_accesses fun s t h => hR s t h.2
  refine { hΦ with
    updateState := fun _ hf => .update fun s => hR s _ (hf s)
    signal := .update hsignal
    fire := fun value => ?_
    armed := fun value => accesses_flag hR value (fun _ => ⟨rfl, rfl⟩) fun _ => ⟨rfl, rfl⟩
    calibrate := fun value => accesses_flag hR value (fun _ => ⟨rfl, rfl⟩) fun _ => ⟨rfl, rfl⟩
    laser := fun value =>
      accesses_switch hR value _ (fun _ => ⟨rfl, rfl⟩) (fun _ => ⟨rfl, rfl⟩) fun _ => ⟨rfl, rfl⟩ }
  refine hΦ.read fun _ => hΦ.ite ?_ ?_
  · exact hΦ.next (hΦ.say _) (accesses_writeState hR (fun _ => ⟨rfl, rfl⟩) hΦ.sendCurrentState)
  · exact accesses_switch hR value _ (fun _ => ⟨rfl, rfl⟩) (fun _ => ⟨rfl, rfl⟩)
      fun _ => ⟨rfl, rfl⟩

end StateBlocks

theorem settingBlocks_accesses (hR : ∀ s t : Server,
    t.systemState = s.systemState ∧ t.engagement = s.engagement → R s t) :
    SettingBlocks fun _ p => Accesses R p where
  toBlocks := blocks_accesses fun s t h => hR s t ⟨h.1, h.2.2⟩
  updateSettings _ hf := .update fun s => hR s _ (hf s)

theorem roundBlocks_accesses (hR : ∀ s t : Server, t.engagement = s.engagement → R s t)
    (hsignal : ∀ s, R s s.signal) : RoundBlocks fun _ p => Accesses R p where
  toStateBlocks := stateBlocks_accesses (fun s t h => hR s t h.2) hsignal
  updateSettings _ hf := .update fun s => hR s _ (hf s).2
  readSection := (accesses_call _).bind fun _ => accesses_call _
  imageSection := accesses_imageSection
  heartBeatRound := accesses_heartBeatRound fun s t h => hR s t h.2.2

end DemoCannon
