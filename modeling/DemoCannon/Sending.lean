import DemoCannon.Guarded

/-! # What is sent while `TCP_Mutex` is held

    Every thread sends its frames in the same way: it locks `TCP_Mutex`, gives
    header and payload to `WriteDataTcp`, in one piece or two, and unlocks.  A
    monitor of the writes (`sendingWatch`) shows it: while a thread holds the
    mutex it writes nothing, a header, or a whole frame, and nobody writes
    without the mutex. -/

namespace DemoCannon

open Interaction Interaction.Program

/-- A header and the payload that it announces. -/
def IsFrame (f : Bytes) : Prop :=
  sizeofHeader ≤ f.length ∧ ntohl f = .ofNat 32 (f.length - sizeofHeader)

instance (f : Bytes) : Decidable (IsFrame f) := inferInstanceAs (Decidable (_ ∧ _))

theorem header_length (len : Nat) (type : BitVec 32) :
    (header len type).length = sizeofHeader := rfl

theorem isFrame_header (type : BitVec 32) (payload : Bytes) :
    IsFrame (header payload.length type ++ payload) := by
  refine ⟨?_, ?_⟩
  · rw [List.length_append, header_length]
    exact Nat.le_add_right ..
  · rw [List.length_append, header_length, Nat.add_sub_cancel_left, header,
      List.append_assoc, ntohl_htonl]

theorem isFrame_wordMessage (type word : BitVec 32) : IsFrame (wordMessage type word) :=
  isFrame_header type (htonl word)

/-! ## The monitor -/

/-- Where a thread is with its writes. -/
inductive Sending where
  /-- Without `TCP_Mutex`. -/
  | outside
  /-- With `TCP_Mutex`, and nothing written. -/
  | fresh
  /-- The header has been written. -/
  | part (f : Bytes)
  /-- A frame has been written. -/
  | whole (f : Bytes)
  /-- A write has failed. -/
  | failed
  /-- `main` is switching off. -/
  | closed
  deriving DecidableEq

namespace Sending

/-- With `TCP_Mutex`. -/
def Inside : Sending → Prop
  | .outside | .closed => False
  | _ => True

/-- What has been written since `TCP_Mutex` was locked. -/
def content : Sending → Bytes
  | .part f | .whole f => f
  | _ => []

/-- Where a write leads that goes through. -/
def write : Sending → Bytes → Option Sending
  | .fresh, data =>
      if data.length = sizeofHeader then some (.part data)
      else if IsFrame data then some (.whole data)
      else none
  | .part f, data => if IsFrame (f ++ data) then some (.whole (f ++ data)) else none
  | _, _ => none

theorem write_header (len : Nat) (type : BitVec 32) :
    Sending.fresh.write (header len type) = some (.part (header len type)) := by
  rw [write, if_pos (header_length len type)]

theorem write_payload {len : Nat} {payload : Bytes} (type : BitVec 32)
    (hlen : payload.length = len) :
    (Sending.part (header len type)).write payload
      = some (.whole (header len type ++ payload)) := by
  subst hlen
  exact if_pos (isFrame_header type payload)

theorem write_frame {f : Bytes} (hf : IsFrame f) (hlen : f.length ≠ sizeofHeader) :
    Sending.fresh.write f = some (.whole f) := by
  rw [write, if_neg hlen, if_pos hf]

theorem write_wordMessage (type word : BitVec 32) :
    Sending.fresh.write (wordMessage type word) = some (.whole (wordMessage type word)) := by
  refine write_frame (isFrame_wordMessage type word) ?_
  rw [show (wordMessage type word).length = 12 from rfl]
  decide

def lock : Sending → Mutex → Option Sending
  | .outside, .tcp => some .fresh
  | _, .tcp => none
  | w, _ => some w

def unlock : Sending → Mutex → Option Sending
  | .fresh, .tcp | .whole _, .tcp | .failed, .tcp => some .outside
  | _, .tcp => none
  | w, _ => some w

end Sending

/-- All bytes of a `WriteDataTcp` have gone through. -/
def Complete (data : Bytes) (script : List SslRet) : Prop :=
  DemoCannon.writeDataTcp data.length script 0 = .returned data.length

instance (data : Bytes) (script : List SslRet) : Decidable (Complete data script) :=
  inferInstanceAs (Decidable (_ = _))

/-- Where a write leads, whether it goes through or not. -/
def Sending.answered (w : Sending) (data : Bytes) (script : List SslRet) :
    Option Sending :=
  (w.write data).map fun w' => if Complete data script then w' else .failed

/-- The monitor of the writes. -/
def sendingWatch : Watch Sending where
  call
    | w, .lock m, _ => w.lock m
    | w, .unlock m, _ => w.unlock m
    | w, .sslWrite data, script => w.answered data script
    | w, _, _ => some w

/-! ## The blocks -/

/-- `p` writes as above, and takes a thread from `w` to `w'`. -/
abbrev Sends {α : Type} (w : Sending) (p : Prog α) (w' : Sending) : Prop :=
  sendingWatch.Follows w p fun _ v => v = w'

section Blocks

variable {α β : Type} {w w' w'' : Sending}

theorem Sends.bind {p : Prog α} {f : α → Prog β} (hp : Sends w p w')
    (hf : ∀ a, Sends w' (f a) w'') : Sends w (p >>= f) w'' := by
  refine hp.seq ?_
  rintro a _ rfl
  exact hf a

theorem sends_lock {m : Mutex} (h : w.lock m = some w') : Sends w (lock m) w' := by
  intro r _
  exact ⟨w', h, rfl⟩

theorem sends_unlock {m : Mutex} (h : w.unlock m = some w') : Sends w (unlock m) w' := by
  intro r _
  exact ⟨w', h, rfl⟩

theorem sends_call {c : Call} (hc : c.Plain) : Sends w (call c) w := by
  intro r _
  cases c with
  | lock m | unlock m =>
      cases hc
      cases w <;> exact ⟨_, rfl, rfl⟩
  | sslWrite data => exact hc.elim
  | sslRead | auditLine | condSignal | pthreadCreate | fopenIni | fopenLog | never =>
      exact ⟨_, rfl, rfl⟩

theorem sends_never : Sends w (never : Prog α) w' := by
  intro r _
  exact Empty.elim r

/-- A write and what comes after it: where it goes through, and where it does
    not. -/
theorem sends_writeDataTcp {data : Bytes} {q : Int → Prog α} (hw : w.write data = some w')
    (hdone : Sends w' (q data.length) w'')
    (hfailed : ∀ retval : Int, retval ≠ data.length → Sends .failed (q retval) w'') :
    Sends w (Thread.writeDataTcp data >>= q) w'' := by
  intro (script : List SslRet) _
  refine ⟨_, congrArg (Option.map _) hw, ?_⟩
  change Sends (if Complete data script then w' else .failed)
    ((DemoCannon.writeDataTcp data.length script 0).leave >>= q) w''
  by_cases hcomplete : Complete data script
  · rw [if_pos hcomplete, show DemoCannon.writeDataTcp data.length script 0 = _ from hcomplete]
    exact hdone
  · rw [if_neg hcomplete]
    cases hend : DemoCannon.writeDataTcp data.length script 0 with
    | exited => trivial
    | waiting =>
        intro r _
        exact Empty.elim r
    | returned retval =>
        refine hfailed retval ?_
        rintro rfl
        exact hcomplete hend

/-- Unlocking at the end of a send. -/
theorem sends_unlockThen (hw : w.unlock .tcp = some .outside) (a : α) :
    Sends w (do unlock .tcp; pure a) .outside :=
  (sends_unlock hw).bind fun _ => rfl

theorem sends_printfSend (text : String) : Sends .outside (printfSend text) .outside := by
  have hlen : (text.toUTF8.data.toList ++ [0]).length = text.toUTF8.size + 1 := by
    rw [List.length_append, Array.length_toList]
    rfl
  refine (sends_lock rfl : Sends _ _ .fresh).bind fun _ => ?_
  refine Monitor.Follows.ite ?_ (sends_unlockThen rfl _)
  refine sends_writeDataTcp (Sending.write_header _ _) ?_ fun retval hne => ?_
  · rw [header_length, if_neg (not_not_intro rfl)]
    refine sends_writeDataTcp (Sending.write_payload _ hlen) ?_ fun _ _ => ?_
    · exact Monitor.Follows.ite (sends_unlockThen rfl _) (sends_unlockThen rfl _)
    · exact Monitor.Follows.ite (sends_unlockThen rfl _) (sends_unlockThen rfl _)
  · rw [header_length] at hne
    rw [if_pos hne]
    exact sends_unlockThen rfl _

theorem sends_say (text : String) : Sends .outside (say text) .outside :=
  (sends_printfSend text).bind fun _ => rfl

/-- A send of a whole frame under the lock. -/
theorem sends_frame {data : Bytes} {q : Int → Prog α}
    (hdata : Sending.fresh.write data = some (.whole data))
    (hq : ∀ retval, Sends .outside (q retval) w) :
    Sends .fresh (do
      let retval ← Thread.writeDataTcp data
      unlock .tcp
      q retval) w :=
  sends_writeDataTcp hdata
    ((sends_unlock rfl).bind fun _ => hq _)
    fun _ _ => (sends_unlock rfl).bind fun _ => hq _

theorem sends_sendWord (type word : BitVec 32) : Sends .outside (do
    lock .tcp
    let retval ← Thread.writeDataTcp (wordMessage type word)
    unlock .tcp
    pure retval) .outside :=
  (sends_lock rfl : Sends _ _ .fresh).bind fun _ =>
    sends_frame (Sending.write_wordMessage type word) fun _ => rfl

/-- What neither locks `TCP_Mutex` nor writes, inside `I2C_Mutex` or `GPIO_Mutex`. -/
theorem sends_inside {m : Mutex} (hm : m ≠ .tcp) {q : Prog Unit} (hq : Sends w q w) :
    Sends w (do lock m; q; unlock m) w := by
  have hlock : w.lock m = some w := by
    cases m <;> first | exact absurd rfl hm | (cases w <;> rfl)
  have hunlock : w.unlock m = some w := by
    cases m <;> first | exact absurd rfl hm | (cases w <;> rfl)
  exact (sends_lock hlock).bind fun _ => hq.bind fun _ => sends_unlock hunlock

theorem sends_update (f : Server → Server) : Sends w (update f) w :=
  ⟨trivial, fun _ _ => rfl⟩

theorem sends_oledUpdateStatus : Sends w oledUpdateStatus w := by
  refine Monitor.Follows.read trivial fun s _ => Monitor.Follows.ite ?_ rfl
  exact sends_inside (by decide) (sends_update _)

theorem sends_sendCurrentState : Sends .outside sendCurrentState .outside := by
  refine Monitor.Follows.read trivial fun s _ => ?_
  have hsend : Sends .outside (sendSystemState s.systemState) .outside :=
    (sends_lock rfl : Sends _ _ .fresh).bind fun _ => sends_oledUpdateStatus.bind fun _ =>
      sends_frame (Sending.write_wordMessage _ _) fun _ => rfl
  exact hsend.bind fun _ => rfl

theorem sends_servoAngle (num : ServoNum) : Sends .outside (servoAngle num) .outside := by
  have hcommand : Sends .outside (do
      update fun s => s.command num
      unlock .i2c) .outside := (sends_update _).bind fun _ => sends_unlock rfl
  have hclamp : ∀ (angle : Rat) (text : String), Sends .outside (do
      update fun s => s.setAngle angle num
      say text
      update fun s => s.command num
      unlock .i2c) .outside := by
    intro angle text
    exact (sends_update _).bind fun _ => (sends_say text).bind fun _ => hcommand
  refine (sends_lock rfl : Sends _ _ .outside).bind fun _ => ?_
  refine Monitor.Follows.read trivial fun s _ => ?_
  exact (hclamp _ _).ite ((hclamp _ _).ite hcommand)

theorem sends_auditlog (msg : String) : Sends w (auditlog msg) w :=
  Monitor.Follows.read trivial fun _ _ => Monitor.Follows.ite (sends_call trivial) rfl

/-- An output and its flag, switched under the lock. -/
theorem sends_switch {f g k : Server → Server} {value : Bool} (msg : String) : Sends w (do
    lock .gpio
    if value then
      auditlog msg
      update f
    else update g
    update k
    unlock .gpio : Prog Unit) w := by
  have hlock : w.lock .gpio = some w := by cases w <;> rfl
  have hset : Sends w (do update k; unlock .gpio : Prog Unit) w := by
    have hunlock : w.unlock .gpio = some w := by cases w <;> rfl
    exact (sends_update _).bind fun _ => sends_unlock hunlock
  refine (sends_lock hlock).bind fun _ => Monitor.Follows.ite ?_ ?_
  · exact (sends_auditlog msg).bind fun _ => (sends_update _).bind fun _ => hset
  · exact (sends_update _).bind fun _ => hset

theorem sends_fire (value : Bool) : Sends .outside (fire value) .outside := by
  refine Monitor.Follows.read trivial fun s _ => Monitor.Follows.ite ?_ (sends_switch _)
  exact (sends_say _).bind fun _ => (sends_update _).bind fun _ => sends_sendCurrentState

/-- A flag of the state word that is set or cleared under the lock. -/
theorem sends_flag {f g : Server → Server} (value : Bool) : Sends w (do
    lock .gpio
    if value then update f else update g
    unlock .gpio : Prog Unit) w := by
  have hlock : w.lock .gpio = some w := by cases w <;> rfl
  have hunlock : w.unlock .gpio = some w := by cases w <;> rfl
  refine (sends_lock hlock).bind fun _ => Monitor.Follows.ite ?_ ?_
  · exact (sends_update _).bind fun _ => sends_unlock hunlock
  · exact (sends_update _).bind fun _ => sends_unlock hunlock

theorem sends_imageSection (sendbuff : Option Bytes) : Sends .outside (do
    lock .tcp
    let _ ← tcpSendImageAsJpeg sendbuff
    unlock .tcp : Prog Unit) .outside := by
  refine (sends_lock rfl : Sends _ _ .fresh).bind fun _ => ?_
  cases sendbuff with
  | none => exact sends_unlock rfl
  | some sendbuff =>
      rw [tcpSendImageAsJpeg, bind_assoc]
      refine sends_writeDataTcp (Sending.write_header _ _) ?_ fun retval hne => ?_
      · rw [header_length, if_neg (not_not_intro rfl)]
        exact sends_writeDataTcp (Sending.write_payload _ rfl) (sends_unlock rfl)
          fun _ _ => sends_unlock rfl
      · rw [header_length] at hne
        rw [if_pos hne]
        exact sends_unlock rfl

theorem sends_heartBeatRound : Sends .outside heartBeatRound .outside := by
  have hframe : Sending.fresh.write (header 4 mtHeartbeat ++ [100, 0, 0, 0])
      = some (.whole (header 4 mtHeartbeat ++ [100, 0, 0, 0])) :=
    Sending.write_frame (isFrame_header mtHeartbeat [100, 0, 0, 0]) (by decide)
  refine (sends_lock rfl : Sends _ _ .fresh).bind fun _ => sends_frame hframe fun _ => ?_
  exact Monitor.Follows.ite ((sends_update _).bind fun _ => rfl) rfl

/-- **Nothing else is written to the connection.** -/
theorem roundBlocks_sends : RoundBlocks fun _ p => Sends .outside p .outside where
  pure _ := rfl
  bind := Sends.bind
  fetch := ⟨trivial, fun _ _ => rfl⟩
  exit _ := trivial
  never := sends_never
  call _ := sends_call
  update _ _ := sends_update _
  updateState _ _ := sends_update _
  signal := sends_update _
  updateSettings _ _ := sends_update _
  say := sends_say
  sendCurrentState := sends_sendCurrentState
  sendLoginState _ := sends_sendWord _ _
  sendCamState _ := sends_sendWord _ _
  servoAngle := sends_servoAngle
  fire := sends_fire
  armed := sends_flag
  calibrate := sends_flag
  laser _ := sends_switch _
  readSection := (sends_lock rfl : Sends _ _ .fresh).bind fun _ => sends_unlock rfl
  imageSection := sends_imageSection
  heartBeatRound := sends_heartBeatRound

/-- At its end `main` writes nothing. -/
theorem sends_switchOff : Sends .closed switchOff .closed := by
  have hfire : Sends .closed (fire false) .closed := by
    refine Monitor.Follows.read trivial fun s _ => ?_
    rw [if_neg (by rintro ⟨⟨⟩, -⟩)]
    exact sends_switch _
  exact (sends_switch _).bind fun _ => hfire.bind fun _ => (sends_flag false).bind fun _ => rfl

end Blocks

/-- Between its rounds a thread does not hold `TCP_Mutex`. -/
abbrev sendingIdle (_ : Tid) (_ : Bool) (w : Sending) : Prop := w = .outside

theorem rounds_sending (P : Platform) :
    Rounds P sendingWatch .outside .closed sendingIdle :=
  roundBlocks_sends.rounds P (fun _ => sends_update _) (sends_switchOff.mono fun _ _ _ => trivial)

theorem tracks_sending : Tracks sendingWatch (· = .tcp) fun w _ => w.Inside where
  atom _ _ _ _ _ := Iff.rfl
  lock {w w' m' r} h m hm := by
    subst hm
    change w.lock m' = some w' at h
    cases m' with
    | tcp =>
        cases w with
        | outside => cases h; simp [Sending.Inside]
        | fresh | part f | whole f | failed | closed => cases h
    | gpio | i2c | engmnt =>
        have hsame : w' = w := by cases w <;> cases h <;> rfl
        simp [hsame]
  unlock {w w' m' r} h m hm := by
    subst hm
    change w.unlock m' = some w' at h
    cases m' with
    | tcp =>
        cases w with
        | fresh | whole f | failed => cases h; simp [Sending.Inside]
        | outside | part f | closed => cases h
    | gpio | i2c | engmnt =>
        have hsame : w' = w := by cases w <;> cases h <;> rfl
        simp [hsame]
  other {w w' c r} hlock hunlock h m _ := by
    cases c with
    | lock m => exact absurd rfl (hlock m)
    | unlock m => exact absurd rfl (hunlock m)
    | sslRead | auditLine | condSignal | pthreadCreate | fopenIni | fopenLog | never =>
        cases h
        rfl
    | sslWrite data =>
        obtain ⟨v, hv, hw'⟩ := Option.map_eq_some_iff.mp h
        have hinside : w.Inside ∧ v.Inside := by
          cases w with
          | fresh =>
              rw [Sending.write] at hv
              split at hv
              · cases hv; exact ⟨trivial, trivial⟩
              · split at hv
                · cases hv; exact ⟨trivial, trivial⟩
                · cases hv
          | part f =>
              rw [Sending.write] at hv
              split at hv
              · cases hv; exact ⟨trivial, trivial⟩
              · cases hv
          | outside | whole f | failed | closed => cases hv
        have hafter : w'.Inside := by
          rw [← hw']
          split
          · exact hinside.2
          · trivial
        exact iff_of_true hafter hinside.1

end DemoCannon
