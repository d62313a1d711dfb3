import DemoCannon.Lib.Run
import DemoCannon.Lib.Works
import DemoCannon.Servo

/-! # The pulses of all channels

    A `Servo` drives sixteen channels.  It keeps a pulse length for each of them, limits,
    and offsets by which the pulses are staggered, and copies what follows from them into
    the registers of the controller.  Its functions throw, on their arguments and when a
    byte is not accepted, and a caller that catches goes on: here a run is any sequence of
    calls, each of which returned or threw.

    The copies are kept up (`pulse_kept`): what was moved stays as long as it is not moved,
    however the other channels, the limits and the offsets change.  And the staggered
    pulses stay in the period exactly when the upper limit leaves room (`staggered_iff`). -/

namespace DemoCannon

open Interaction Interaction.Program Quantize

/-! ## The limits -/

/-- `set_low_limit` and `set_high_limit`, with what they say and the vector they write. -/
def setLimit (channelText pulseText : String)
    (write : (Vector UInt16 16 → Vector UInt16 16) → Servo → Servo) (limit : Rat)
    (channel : UInt8) : ServoProg Unit :=
  if hchannel : channel > 16 then .exit (.outOfRange channelText)
  else if limitPos limit > 4095 then .exit (.outOfRange pulseText)
  else if hone : channel < 1 then
    update (write fun _ => .replicate 16 (limitPos limit))
  else
    let i := (⟨channel, not_or.mpr ⟨hone, hchannel⟩⟩ : Channel).index
    update (write fun v => v.set i (limitPos limit))

/-- `Servo::set_low_limit`. -/
def Servo.setLowLimit : Rat → UInt8 → ServoProg Unit :=
  setLimit "set_low_limit: channel out of range"
    "set_low_limit: pulse time to high for the current frequency"
    fun f s => { s with lowpos := f s.lowpos }

/-- `Servo::set_high_limit`. -/
def Servo.setHighLimit : Rat → UInt8 → ServoProg Unit :=
  setLimit "set_high_limit: channel out of range"
    "set_high_limit: pulse time to high for the current frequency"
    fun f s => { s with highpos := f s.highpos }

/-! ## The offsets -/

/-- The channel of a place in the vectors. -/
def Channel.of (i : Fin 16) : Channel :=
  ⟨i.val.toUInt8 + 1, by revert i; decide⟩

/-- One round of `refresh_channels`. -/
def refreshChannel (i : Fin 16) : ServoProg Unit := do
  let s ← fetch
  if s.pos[i] = 0 then setPwm (Channel.of i).num 0 0
  else if s.useOffset then setPwm (Channel.of i).num s.offset[i] (s.pos[i] + s.offset[i])
  else setPwm (Channel.of i).num 0 s.pos[i]

/-- `Servo::refresh_channels`. -/
def Servo.refreshChannels : ServoProg Unit := (List.finRange 16).forM refreshChannel

/-- Where the pulse behind that of channel `i` starts, which starts at `x`. -/
def Servo.nextStart (s : Servo) (i : Fin 16) (x : UInt16) : UInt16 :=
  let x := x + s.highpos[i]
  if (x.toNat : Int) > 4095 - s.highpos[i].toNat then s.highpos[0] / 2 else x

/-- The rounds of `calculate_offsets` from `x` on. -/
def calculateFrom (x : UInt16) : List (Fin 16) → ServoProg Unit
  | [] => pure ()
  | i :: rest => do
      update fun s => { s with offset := s.offset.set i x }
      let s ← fetch
      Servo.refreshChannels
      calculateFrom (s.nextStart i x) rest

/-- `Servo::calculate_offsets`. -/
def Servo.calculateOffsets : ServoProg Unit := calculateFrom 0 (List.finRange 16)

/-- `Servo::offset_enable`. -/
def Servo.offsetEnable : ServoProg Unit := do
  update fun s => { s with useOffset := true }
  calculateOffsets

/-- `Servo::offset_disable`. -/
def Servo.offsetDisable : ServoProg Unit := do
  update fun s => { s with useOffset := false }
  refreshChannels

/-- The constructor, from the vectors of a new object and whatever is in the registers.
    `set_frequency` writes none of the registers of a channel. -/
def Servo.construct (lowLimit highLimit : Rat) : ServoProg Unit := do
  setLowLimit lowLimit 0
  setHighLimit highLimit 0
  calculateOffsets

/-! ## Runs of calls -/

/-- A call of a function of `Servo`. -/
inductive ServoCall where
  | angle (channel : UInt8) (angle : Rat)
  | move (channel : UInt8) (position steps : UInt16)
  | setLowLimit (limit : Rat) (channel : UInt8)
  | setHighLimit (limit : Rat) (channel : UInt8)
  | offsetEnable
  | offsetDisable

def ServoCall.prog : ServoCall → ServoProg Unit
  | .angle channel a => Servo.angle channel a
  | .move channel position steps => Servo.move channel position steps
  | .setLowLimit limit channel => Servo.setLowLimit limit channel
  | .setHighLimit limit channel => Servo.setHighLimit limit channel
  | .offsetEnable => Servo.offsetEnable
  | .offsetDisable => Servo.offsetDisable

/-- A call, and what it threw if it did. -/
inductive ServoStep (s : Servo) : ServoCall × Option Thrown → Servo → Prop where
  | returned {call : ServoCall} {t : Servo} : Ends call.prog s () t → ServoStep s (call, none) t
  | threw {call : ServoCall} {e : Thrown} {t : Servo} :
      Exits call.prog s e t → ServoStep s (call, some e) t

abbrev ServoRun := Run ServoStep

theorem ServoStep.stops {s t : Servo} {x : ServoCall × Option Thrown} (h : ServoStep s x t) :
    Stops x.1.prog s t := by
  cases h with
  | returned h => exact Or.inl ⟨(), h⟩
  | threw h => exact Or.inr ⟨_, h⟩

/-! ## Channels and their registers -/

@[simp] theorem Channel.index_of (i : Fin 16) : (Channel.of i).index = i := by
  revert i
  decide

theorem Channel.toNat_num (c : Channel) : c.num.toNat = c.index + 1 := by
  have hvalid := c.valid
  simp only [Channel.index]
  grind [UInt8.lt_iff_toNat_lt]

theorem Channel.index_lt (c : Channel) : c.index.val < 16 := c.index.isLt

/-- What a vector holds for a channel. -/
abbrev Channel.entry (c : Channel) (v : Vector UInt16 16) : UInt16 :=
  getElem v c.index c.index_lt

theorem Channel.entry_set (c : Channel) (v : Vector UInt16 16) (x : UInt16) :
    c.entry (v.set c.index x c.index_lt) = x := Vector.getElem_set_self ..

theorem Channel.index_le (c : Channel) : (c.index : Nat) ≤ 15 :=
  Nat.le_of_lt_succ c.index.isLt

theorem Channel.index_inj {c d : Channel} (h : c.index = d.index) : c = d := by
  have hnum : c.num = d.num := by rw [← UInt8.toNat_inj, c.toNat_num, d.toNat_num, h]
  cases c
  cases d
  congr

theorem Channel.of_index (c : Channel) : Channel.of c.index = c :=
  index_inj (index_of c.index)

/-- `reg` is one of the four registers of the channel. -/
def Channel.Owns (c : Channel) (reg : UInt8) : Prop :=
  6 + 4 * c.index ≤ reg.toNat ∧ reg.toNat < 10 + 4 * c.index

/-- One of the first four registers, moved up to those of a channel. -/
theorem Channel.toNat_register (c : Channel) {led : UInt8} (hled : led ≤ led0OffH) :
    (led + 4 * (c.num - 1)).toNat = led.toNat + 4 * c.index := by
  have hnum := c.toNat_num
  have hindex := c.index_le
  have hle : led.toNat ≤ 9 := UInt8.le_iff_toNat_le.mp hled
  have hone : (1 : UInt8) ≤ c.num := by
    rw [UInt8.le_iff_toNat_le, hnum]
    exact Nat.le_add_left ..
  rw [UInt8.toNat_add, UInt8.toNat_mul, UInt8.toNat_sub_of_le _ _ hone, hnum]
  change (led.toNat + 4 * (c.index + 1 - 1) % 256) % 256 = _
  omega

theorem Channel.owns_register (c : Channel) {led : UInt8} (hlow : led0OnL ≤ led)
    (hled : led ≤ led0OffH) : c.Owns (led + 4 * (c.num - 1)) := by
  have hge : 6 ≤ led.toNat := UInt8.le_iff_toNat_le.mp hlow
  have hle : led.toNat ≤ 9 := UInt8.le_iff_toNat_le.mp hled
  rw [Channel.Owns, c.toNat_register hled]
  omega

theorem Channel.Owns.unique {c d : Channel} {reg : UInt8} (hc : c.Owns reg) (hd : d.Owns reg) :
    c.index = d.index := by
  obtain ⟨hc, hc'⟩ := hc
  obtain ⟨hd, hd'⟩ := hd
  omega

/-- The value of `get_pwm_on_time`, from the registers. -/
def Servo.getPwmOnTime (s : Servo) (channel : UInt8) : UInt16 :=
  let channel := channel - 1
  let lowbyte := s.registers (led0OnL + 4 * channel)
  let highbyte := s.registers (led0OnH + 4 * channel)
  lowbyte.toUInt16 ||| highbyte.toUInt16 <<< 8

/-- What `get_pwm_on_time` reads is what was written. -/
theorem getPwmOnTime_setPulse (s : Servo) (c : Channel) (onTime offTime : UInt16) :
    (s.setPulse c.num onTime offTime).getPwmOnTime c.num = onTime := by
  have hne : ∀ {led led' : UInt8}, led ≠ led' →
      led + 4 * (c.num - 1) ≠ led' + 4 * (c.num - 1) := fun hled h =>
    hled ((UInt8.add_left_inj _).mp h)
  simp only [Servo.getPwmOnTime, Servo.setPulse, Servo.setRegister,
    if_neg (hne (by decide : led0OnL ≠ led0OffH)), if_neg (hne (by decide : led0OnL ≠ led0OffL)),
    if_neg (hne (by decide : led0OnL ≠ led0OnH)), if_neg (hne (by decide : led0OnH ≠ led0OffH)),
    if_neg (hne (by decide : led0OnH ≠ led0OffL)), if_true]
  exact bytes_of_word onTime

/-- Two servos agree on what they hold of a channel and on what its registers show. -/
structure Servo.SameAt (c : Channel) (s t : Servo) : Prop where
  pos : c.entry t.pos = c.entry s.pos
  offset : c.entry t.offset = c.entry s.offset
  useOffset : t.useOffset = s.useOffset
  registers : ∀ reg, c.Owns reg → t.registers reg = s.registers reg

theorem Servo.SameAt.refl (c : Channel) (s : Servo) : s.SameAt c s :=
  ⟨rfl, rfl, rfl, fun _ _ => rfl⟩

theorem Servo.SameAt.trans {c : Channel} {s m t : Servo} (h : s.SameAt c m) (h' : m.SameAt c t) :
    s.SameAt c t :=
  ⟨h'.pos.trans h.pos, h'.offset.trans h.offset, h'.useOffset.trans h.useOffset,
    fun reg hreg => (h'.registers reg hreg).trans (h.registers reg hreg)⟩

theorem Servo.SameAt.getPwmOnTime {c : Channel} {s t : Servo} (h : s.SameAt c t) :
    t.getPwmOnTime c.num = s.getPwmOnTime c.num := by
  rw [Servo.getPwmOnTime, h.registers _ (c.owns_register (by decide) (by decide)),
    h.registers _ (c.owns_register (by decide) (by decide)), ← Servo.getPwmOnTime]

theorem Servo.SameAt.getPwmOffTime {c : Channel} {s t : Servo} (h : s.SameAt c t) :
    t.getPwmOffTime c.num = s.getPwmOffTime c.num := by
  rw [Servo.getPwmOffTime, h.registers _ (c.owns_register (by decide) (by decide)),
    h.registers _ (c.owns_register (by decide) (by decide)), ← Servo.getPwmOffTime]

/-! ## What the functions write -/

section Writes

variable {R : Servo → Servo → Prop}

theorem accesses_writeByteData {reg value : UInt8} (h : ∀ s, R s (s.setRegister reg value)) :
    Accesses R (writeByteData reg value) :=
  .bind (.ask _) fun _ => .ite (.exit _) <| .bind (.ask _) fun _ => .ite (.exit _) <|
    .bind (.ask _) fun _ => .ite (.exit _) (.update h)

/-- `set_pwm` writes registers of its channel. -/
theorem accesses_setPwm (c : Channel) (onTime offTime : UInt16)
    (h : ∀ s reg value, c.Owns reg → R s (s.setRegister reg value)) :
    Accesses R (setPwm c.num onTime offTime) := by
  have hwrite : ∀ {led : UInt8} (value : UInt8), led0OnL ≤ led → led ≤ led0OffH →
      Accesses R (writeByteData (led + 4 * (c.num - 1)) value) := fun value hlow hled =>
    accesses_writeByteData fun s => h s _ value (c.owns_register hlow hled)
  refine .ite (.exit _) (.ite (.exit _) (.ite (.exit _) (.ite (.exit _) ?_)))
  refine .bind (hwrite _ (by decide) (by decide)) fun _ => ?_
  refine .bind (hwrite _ (by decide) (by decide)) fun _ => ?_
  exact .bind (hwrite _ (by decide) (by decide)) fun _ => hwrite _ (by decide) (by decide)

/-- `move` writes the position of its channel and its registers. -/
theorem accesses_move {c : Channel} {position steps : UInt16} (hrefl : ∀ s, R s s)
    (hpos : ∀ (s : Servo) x, R s { s with pos := s.pos.set c.index x c.index_lt })
    (h : ∀ s reg value, c.Owns reg → R s (s.setRegister reg value)) :
    Accesses R (Servo.move c.num position steps) := by
  rw [Servo.move, dif_neg c.valid]
  refine .ite (.exit _) (.ite (.exit _) (.read hrefl fun s => ?_))
  refine .bind (.update fun s => hpos s _) fun _ => ?_
  exact .ite (accesses_setPwm c _ _ h) (accesses_setPwm c _ _ h)

theorem accesses_refreshChannels (hrefl : ∀ s, R s s)
    (h : ∀ s reg value, R s (s.setRegister reg value)) : Accesses R Servo.refreshChannels := by
  refine .forM (fun i => .read hrefl fun s => ?_) _
  exact .ite (accesses_setPwm _ _ _ fun s reg value _ => h s reg value)
    (.ite (accesses_setPwm _ _ _ fun s reg value _ => h s reg value)
      (accesses_setPwm _ _ _ fun s reg value _ => h s reg value))

theorem accesses_calculateFrom (hrefl : ∀ s, R s s)
    (hoffset : ∀ (s : Servo) (i : Fin 16) x, R s { s with offset := s.offset.set i x })
    (h : ∀ s reg value, R s (s.setRegister reg value)) (x : UInt16) (l : List (Fin 16)) :
    Accesses R (calculateFrom x l) := by
  induction l generalizing x with
  | nil => exact .pure ()
  | cons i rest ih =>
      refine .bind (.update fun s => hoffset s i x) fun _ => .read hrefl fun s => ?_
      exact .bind (accesses_refreshChannels hrefl h) fun _ => ih _

/-- The setters of the limits write limits. -/
theorem accesses_setLimit {channelText pulseText : String}
    {write : (Vector UInt16 16 → Vector UInt16 16) → Servo → Servo} (h : ∀ f s, R s (write f s))
    (limit : Rat) (channel : UInt8) :
    Accesses R (setLimit channelText pulseText write limit channel) := by
  rw [setLimit]
  by_cases hchannel : channel > 16
  · rw [dif_pos hchannel]
    exact .exit _
  · rw [dif_neg hchannel]
    refine .ite (.exit _) ?_
    by_cases hone : channel < 1
    · rw [dif_pos hone]
      exact .update (h _)
    · rw [dif_neg hone]
      exact .update (h _)

end Writes

/-! ## What the registers show -/

/-- Where the pulse of a channel starts. -/
def Servo.startOf (s : Servo) (c : Channel) : UInt16 :=
  if s.useOffset then c.entry s.offset else 0

theorem Servo.startOf_of (s : Servo) (i : Fin 16) :
    s.startOf (Channel.of i) = if s.useOffset then s.offset[i] else 0 := by
  simp [Servo.startOf]

/-- The registers show what is held: a pulse as long as `pos`, at its start.  One of no
    length may be at 0. -/
structure Servo.Shows (s : Servo) (c : Channel) : Prop where
  offTime : s.getPwmOffTime c.num = c.entry s.pos + s.getPwmOnTime c.num
  onTime : s.getPwmOnTime c.num = s.startOf c ∨ c.entry s.pos = 0

theorem Servo.SameAt.shows {c : Channel} {s t : Servo} (h : s.SameAt c t) (hs : s.Shows c) :
    t.Shows c where
  offTime := by rw [h.getPwmOffTime, h.getPwmOnTime, h.pos, hs.offTime]
  onTime := by
    rw [h.getPwmOnTime, Servo.startOf, h.useOffset, h.offset, h.pos]
    exact hs.onTime

theorem Servo.sameAt_setRegister {c d : Channel} (hd : d.index ≠ c.index) (s : Servo)
    {reg : UInt8} (value : UInt8) (h : d.Owns reg) : s.SameAt c (s.setRegister reg value) := by
  refine ⟨rfl, rfl, rfl, fun r hr => if_neg ?_⟩
  rintro rfl
  exact hd (h.unique hr)

theorem post_setPwm (c : Channel) (onTime offTime : UInt16) (s : Servo) :
    Post (setPwm c.num onTime offTime) s fun _ t => t = s.setPulse c.num onTime offTime := by
  rw [setPwm, if_neg c.valid]
  refine .check fun hon => .check fun hoff => .check fun horder => ?_
  have hends := (does_setPwm c (UInt16.not_lt.mp horder) (UInt16.not_lt.mp hoff) s).ends
  rwa [setPwm, if_neg c.valid, if_neg hon, if_neg hoff, if_neg horder] at hends

/-- A pulse of the length that is held, where one is put. -/
theorem post_setPwm_shows {s : Servo} {c : Channel} {onTime offTime : UInt16}
    (hoff : offTime = c.entry s.pos + onTime) (hon : onTime = s.startOf c ∨ c.entry s.pos = 0) :
    Post (setPwm c.num onTime offTime) s fun _ t => t.Shows c := by
  refine (post_setPwm c onTime offTime s).mono ?_
  rintro _ _ rfl
  refine ⟨?_, ?_⟩
  · rw [getPwmOffTime_setPulse, getPwmOnTime_setPulse, hoff]
    rfl
  · rw [getPwmOnTime_setPulse]
    exact hon

/-- A `move` that returns is shown. -/
theorem post_move_shows (c : Channel) (position steps : UInt16) (s : Servo) :
    Post (Servo.move c.num position steps) s fun _ t => t.Shows c := by
  rw [Servo.move, dif_neg c.valid]
  refine .check fun _ => .check fun _ => ?_
  rw [post_bind, post_fetch, post_bind, post_update]
  by_cases huse : s.useOffset
  · rw [if_pos huse]
    refine post_setPwm_shows ?_ (Or.inl ?_)
    · exact congrArg (· + _) (c.entry_set ..).symm
    · exact (if_pos huse).symm
  · rw [if_neg huse]
    refine post_setPwm_shows ?_ (Or.inl ?_)
    · exact ((UInt16.add_zero _).trans (c.entry_set ..)).symm
    · exact (if_neg huse).symm

theorem post_refreshChannel_shows (i : Fin 16) (s : Servo) :
    Post (refreshChannel i) s fun _ t => t.Shows (Channel.of i) := by
  rw [refreshChannel, post_bind, post_fetch]
  by_cases hzero : s.pos[i] = 0
  · rw [if_pos hzero]
    have hpos : (Channel.of i).entry s.pos = 0 := by simpa using hzero
    exact post_setPwm_shows (by rw [hpos]; rfl) (Or.inr hpos)
  · rw [if_neg hzero]
    by_cases huse : s.useOffset
    · rw [if_pos huse]
      exact post_setPwm_shows (by simp) (Or.inl (by rw [Servo.startOf_of, if_pos huse]))
    · rw [if_neg huse]
      exact post_setPwm_shows (by simp) (Or.inl (by rw [Servo.startOf_of, if_neg huse]))

/-- Refreshing a channel keeps what the others show. -/
theorem post_refreshChannel_keeps (i : Fin 16) (c : Channel) (s : Servo) (hs : s.Shows c) :
    Post (refreshChannel i) s fun _ t => t.Shows c := by
  by_cases hi : i = c.index
  · subst hi
    have hshows := post_refreshChannel_shows c.index s
    rwa [c.of_index] at hshows
  · have hwrite : ∀ (s : Servo) reg value, (Channel.of i).Owns reg →
        s.SameAt c (s.setRegister reg value) := fun s _ value h =>
      s.sameAt_setRegister (by rwa [Channel.index_of]) value h
    have hacc : Accesses (Servo.SameAt c) (refreshChannel i) :=
      .read (Servo.SameAt.refl c) fun _ => .ite (accesses_setPwm _ _ _ hwrite)
        (.ite (accesses_setPwm _ _ _ hwrite) (accesses_setPwm _ _ _ hwrite))
    intro a t hends
    exact (hacc.stops (Servo.SameAt.refl c) (fun _ _ _ => Servo.SameAt.trans)
      (Or.inl ⟨a, hends⟩)).shows hs

theorem post_refreshChannels_shows (s : Servo) :
    Post Servo.refreshChannels s fun _ t => ∀ c, t.Shows c := by
  refine (Post.forM_all post_refreshChannel_shows
    (fun i d => post_refreshChannel_keeps i (Channel.of d)) _).mono ?_
  intro _ t ht c
  rw [← c.of_index]
  exact ht c.index (List.mem_finRange _)

/-- The last round leaves nothing behind. -/
theorem post_calculateFrom_shows (x : UInt16) (i : Fin 16) (rest : List (Fin 16)) (s : Servo) :
    Post (calculateFrom x (i :: rest)) s fun _ t => ∀ c, t.Shows c := by
  induction rest generalizing x i s with
  | nil =>
      rw [calculateFrom, post_bind, post_update, post_bind, post_fetch, post_bind]
      exact (post_refreshChannels_shows _).mono fun _ t ht => (post_pure ..).mpr ht
  | cons j rest ih =>
      rw [calculateFrom, post_bind, post_update, post_bind, post_fetch, post_bind]
      exact fun _ m _ => ih _ j m

theorem post_calculateOffsets_shows (s : Servo) :
    Post Servo.calculateOffsets s fun _ t => ∀ c, t.Shows c :=
  post_calculateFrom_shows 0 0 (List.finRange 16).tail s

/-! ## What a call writes -/

/-- The call sets a new pulse for the channel: its arguments are in range. -/
def ServoCall.Moves (c : Channel) : ServoCall → Prop
  | .angle channel _ => channel = c.num
  | .move channel position steps =>
      channel = c.num ∧ ¬ (steps < 1 ∨ steps > 4095) ∧ ¬ position > steps
  | .setLowLimit .. | .setHighLimit .. | .offsetEnable | .offsetDisable => False

/-- The call writes the registers of the channel. -/
def ServoCall.Writes (c : Channel) : ServoCall → Prop
  | .offsetEnable | .offsetDisable => True
  | call => call.Moves c

instance (c : Channel) : DecidablePred (ServoCall.Moves c)
  | .angle channel _ => inferInstanceAs (Decidable (channel = c.num))
  | .move channel position steps => inferInstanceAs
      (Decidable (channel = c.num ∧ ¬ (steps < 1 ∨ steps > 4095) ∧ ¬ position > steps))
  | .setLowLimit .. | .setHighLimit .. | .offsetEnable | .offsetDisable => isFalse id

instance (c : Channel) : DecidablePred (ServoCall.Writes c)
  | .offsetEnable | .offsetDisable => isTrue trivial
  | .angle channel a => inferInstanceAs (Decidable (ServoCall.Moves c (.angle channel a)))
  | .move channel position steps =>
      inferInstanceAs (Decidable (ServoCall.Moves c (.move channel position steps)))
  | .setLowLimit .. | .setHighLimit .. => isFalse id

/-- The last call that wrote the registers of the channel returned. -/
def Shown (c : Channel) : List (Servo × ServoCall × Option Thrown) → Prop
  | [] => True
  | (_, call, thrown) :: h => if call.Writes c then thrown = none else Shown c h

theorem shown_returned {c : Channel} (call : ServoCall) (hwrites : call.Writes c) (s : Servo)
    (h : List (Servo × ServoCall × Option Thrown)) : Shown c ((s, call, none) :: h) := by
  rw [Shown, if_pos hwrites]

/-- The pulse of a call on the channel. -/
def ServoCall.pulse (s : Servo) (c : Channel) : ServoCall → UInt16
  | .angle _ a => pwmValue (c.entry s.lowpos) (c.entry s.highpos) (position a) 4095
  | .move _ position steps => pwmValue (c.entry s.lowpos) (c.entry s.highpos) position steps
  | .setLowLimit .. | .setHighLimit .. | .offsetEnable | .offsetDisable => c.entry s.pos

theorem not_position_gt (a : Rat) : ¬ position a > 4095 := by
  rw [gt_iff_lt, UInt16.lt_iff_toNat_lt]
  exact Nat.not_lt.mpr (position_le a)

/-- A `move` that is none of the channel leaves all of it alone. -/
theorem accesses_move_sameAt {c : Channel} {channel : UInt8} {position steps : UInt16}
    (h : ¬ (ServoCall.move channel position steps).Moves c) :
    Accesses (Servo.SameAt c) (Servo.move channel position steps) := by
  by_cases hchannel : channel < 1 ∨ channel > 16
  · rw [Servo.move, dif_pos hchannel]
    exact .exit _
  · by_cases hsame : channel = c.num
    · -- the channel is right, so the arguments are not
      subst hsame
      rw [Servo.move, dif_neg hchannel]
      by_cases hsteps : steps < 1 ∨ steps > 4095
      · rw [if_pos hsteps]
        exact .exit _
      · have hposition : position > steps := by
          by_contra hle
          exact h ⟨rfl, hsteps, hle⟩
        rw [if_neg hsteps, if_pos hposition]
        exact .exit _
    · have hindex : (⟨channel, hchannel⟩ : Channel).index ≠ c.index := fun heq =>
        hsame (congrArg Channel.num (Channel.index_inj heq))
      refine accesses_move (c := ⟨channel, hchannel⟩) (Servo.SameAt.refl c) ?_
        fun s _ value hreg => s.sameAt_setRegister hindex value hreg
      intro s x
      exact ⟨Vector.getElem_set_ne (Fin.isLt _) (Fin.isLt _) (Fin.val_ne_of_ne hindex), rfl, rfl,
        fun _ _ => rfl⟩

/-- A call that does not write the registers leaves all of the channel alone. -/
theorem accesses_of_not_writes {c : Channel} {call : ServoCall} (h : ¬ call.Writes c) :
    Accesses (Servo.SameAt c) call.prog := by
  cases call with
  | angle channel a => exact accesses_move_sameAt fun hmoves => h hmoves.1
  | move channel position steps => exact accesses_move_sameAt h
  | setLowLimit limit channel =>
      rw [ServoCall.prog, Servo.setLowLimit]
      exact accesses_setLimit (fun _ _ => ⟨rfl, rfl, rfl, fun _ _ => rfl⟩) limit channel
  | setHighLimit limit channel =>
      rw [ServoCall.prog, Servo.setHighLimit]
      exact accesses_setLimit (fun _ _ => ⟨rfl, rfl, rfl, fun _ _ => rfl⟩) limit channel
  | offsetEnable => exact absurd trivial h
  | offsetDisable => exact absurd trivial h

/-- One that does, and returns, is shown. -/
theorem post_of_writes {c : Channel} {call : ServoCall} (h : call.Writes c) (s : Servo) :
    Post call.prog s fun _ t => t.Shows c := by
  cases call with
  | angle channel a =>
      have hchannel : channel = c.num := h
      subst hchannel
      exact post_move_shows c _ _ s
  | move channel position steps =>
      obtain ⟨rfl, -, -⟩ := h
      exact post_move_shows c _ _ s
  | setLowLimit limit channel => exact absurd h id
  | setHighLimit limit channel => exact absurd h id
  | offsetEnable =>
      refine (post_bind ..).mpr ((post_update ..).mpr ?_)
      exact (post_calculateOffsets_shows _).mono fun _ _ ht => ht c
  | offsetDisable =>
      refine (post_bind ..).mpr ((post_update ..).mpr ?_)
      exact (post_refreshChannels_shows _).mono fun _ _ ht => ht c

/-- Only a call that moves the channel writes its position. -/
theorem accesses_of_not_moves {c : Channel} {call : ServoCall} (h : ¬ call.Moves c) :
    Accesses (fun s t => c.entry t.pos = c.entry s.pos) call.prog := by
  by_cases hwrites : call.Writes c
  · cases call with
    | offsetEnable =>
        refine .bind (.update fun _ => rfl) fun _ => ?_
        exact accesses_calculateFrom (R := fun s t : Servo => c.entry t.pos = c.entry s.pos)
          (fun _ => rfl) (fun _ _ _ => rfl) (fun _ _ _ => rfl) _ _
    | offsetDisable =>
        refine .bind (.update fun _ => rfl) fun _ => ?_
        exact accesses_refreshChannels (R := fun s t : Servo => c.entry t.pos = c.entry s.pos)
          (fun _ => rfl) fun _ _ _ => rfl
    | angle | move | setLowLimit | setHighLimit => exact absurd hwrites h
  · exact (accesses_of_not_writes hwrites).mono fun _ _ hsame => hsame.pos

/-! ## Over a run -/

/-- One call. -/
theorem shows_step {c : Channel} {s t : Servo} {x : ServoCall × Option Thrown}
    (hstep : ServoStep s x t) (hwrites : x.1.Writes c → x.2 = none)
    (hs : ¬ x.1.Writes c → s.Shows c) : t.Shows c := by
  by_cases hx : x.1.Writes c
  · cases hstep with
    | returned hends => exact post_of_writes hx s () t hends
    | threw hexits => exact absurd (hwrites hx) (Option.some_ne_none _)
  · exact ((accesses_of_not_writes hx).stops (Servo.SameAt.refl c)
      (fun _ _ _ => Servo.SameAt.trans) hstep.stops).shows (hs hx)

/-- What is shown at the start of a run is shown while the calls that write it return. -/
theorem shows_of_run {c : Channel} {s₀ s : Servo} {h : List (Servo × ServoCall × Option Thrown)}
    (h0 : s₀.Shows c) (hr : ServoRun s₀ h s) (hshown : Shown c h) : s.Shows c := by
  induction hr with
  | start => exact h0
  | @snoc h s t x _ hstep ih =>
      have hiff : Shown c ((s, x) :: h)
          ↔ if x.1.Writes c then x.2 = none else Shown c h := Iff.rfl
      rw [hiff] at hshown
      refine shows_step hstep (fun hx => ?_) fun hx => ?_
      · rwa [if_pos hx] at hshown
      · rw [if_neg hx] at hshown
        exact ih hshown

theorem pos_of_run {c : Channel} {s₀ s : Servo} {h : List (Servo × ServoCall × Option Thrown)}
    (hr : ServoRun s₀ h s) (hmoves : ∀ x ∈ h, ¬ x.2.1.Moves c) :
    c.entry s.pos = c.entry s₀.pos := by
  induction hr with
  | start => rfl
  | @snoc h s t x _ hstep ih =>
      obtain ⟨hlast, hrest⟩ := List.forall_mem_cons.mp hmoves
      have hpos := (accesses_of_not_moves hlast).stops (fun _ => rfl)
        (fun _ _ _ hsm hmt => hmt.trans hsm) hstep.stops
      exact hpos.trans (ih hrest)

/-! ## Every call works -/

section Works

variable {I : Servo → Prop}

/-- What no write of a register breaks holds at an exit too. -/
theorem Does.works {p : ServoProg Unit} {s t : Servo} (hdoes : Does p s t)
    (hacc : Accesses (fun s t => I s → I t) p) (hs : I s) :
    Works TakesWrites p s (fun _ => I) fun e u => e.IsBusError ∧ I u := by
  have hstops : ∀ {u}, Stops p s u → I u := fun h =>
    hacc.stops (fun _ => id) (fun _ _ _ hsm hmt hs => hmt (hsm hs)) h hs
  obtain ⟨⟨⟩, u, hends⟩ := hdoes.returns.exists_endsUnder
  obtain rfl : u = t := hdoes.ends () u hends.ends
  refine ⟨fun a u h => hstops (Or.inl ⟨a, h⟩), fun e u h => ⟨hdoes.exits e u h,
    hstops (Or.inr ⟨e, h⟩)⟩, hdoes.returns.mono ?_⟩
  rintro _ _ _ rfl
  exact hstops (Or.inl ⟨(), hends.ends⟩)

variable (hregister : ∀ s reg value, I s → I (s.setRegister reg value))

include hregister

theorem works_setPwm (c : Channel) {onTime offTime : UInt16} (hon : onTime ≤ offTime)
    (hoff : offTime ≤ 4095) {s : Servo} (hs : I s) :
    Works TakesWrites (setPwm c.num onTime offTime) s (fun _ => I)
      fun e t => e.IsBusError ∧ I t :=
  (does_setPwm c hon hoff s).works
    (accesses_setPwm c _ _ fun s reg value _ => hregister s reg value) hs

/-- A pulse of this length, put at the start of the channel, is over before the period. -/
theorem works_setPwm_pulse (c : Channel) {s : Servo} (hs : I s) {x : UInt16}
    (hroom : x.toNat + (s.startOf c).toNat ≤ 4095) :
    Works TakesWrites (setPwm c.num (s.startOf c) (x + s.startOf c)) s (fun _ => I)
      fun e t => e.IsBusError ∧ I t := by
  have hsum : (x + s.startOf c).toNat = x.toNat + (s.startOf c).toNat := by
    rw [UInt16.toNat_add]
    omega
  refine works_setPwm hregister c ?_ ?_ hs
  · rw [UInt16.le_iff_toNat_le, hsum]
    exact Nat.le_add_left ..
  · rw [UInt16.le_iff_toNat_le, hsum]
    exact hroom

theorem works_refreshChannel (i : Fin 16) {s : Servo} (hs : I s)
    (hroom : s.pos[i] = 0 ∨ s.pos[i].toNat + (s.startOf (Channel.of i)).toNat ≤ 4095) :
    Works TakesWrites (refreshChannel i) s (fun _ => I) fun e t => e.IsBusError ∧ I t := by
  refine .fetch ?_
  by_cases hzero : s.pos[i] = 0
  · rw [if_pos hzero]
    exact works_setPwm hregister _ (UInt16.le_refl 0) (by decide) hs
  · rw [if_neg hzero]
    have hpulse := works_setPwm_pulse hregister (Channel.of i) hs (hroom.resolve_left hzero)
    by_cases huse : s.useOffset
    · rw [if_pos huse]
      rwa [Servo.startOf_of, if_pos huse] at hpulse
    · rw [if_neg huse]
      rwa [Servo.startOf_of, if_neg huse, UInt16.add_zero] at hpulse

variable (hroom : ∀ s, I s → ∀ i : Fin 16,
  s.pos[i] = 0 ∨ s.pos[i].toNat + (s.startOf (Channel.of i)).toNat ≤ 4095)

include hroom

theorem works_refreshChannels {s : Servo} (hs : I s) :
    Works TakesWrites Servo.refreshChannels s (fun _ => I) fun e t => e.IsBusError ∧ I t :=
  Works.forM (fun i s hs => works_refreshChannel hregister i hs (hroom s hs i)) _ hs

/-- `X` is what is kept of the starts. -/
theorem works_calculateFrom {X : UInt16 → Prop}
    (hset : ∀ (s : Servo) (i : Fin 16) x, I s → X x → I { s with offset := s.offset.set i x })
    (hnext : ∀ (s : Servo) (i : Fin 16) x, I s → X x → X (s.nextStart i x)) {x : UInt16}
    (hx : X x) (l : List (Fin 16)) {s : Servo} (hs : I s) :
    Works TakesWrites (calculateFrom x l) s (fun _ => I) fun e t => e.IsBusError ∧ I t := by
  induction l generalizing x s with
  | nil => exact .pure hs
  | cons i rest ih =>
      have hs' := hset s i x hs hx
      refine .bind (.update (Q := fun _ t => t = { s with offset := s.offset.set i x }) rfl) ?_
      rintro _ _ rfl
      exact .fetch ((works_refreshChannels hregister hroom hs').bind fun _ _ ht =>
        ih (hnext _ i x hs' hx) ht)

end Works

/-! ## Room in the period -/

/-- The same limits for all channels. -/
structure Servo.Limits (s : Servo) (low high : UInt16) : Prop where
  lowpos : ∀ i : Fin 16, s.lowpos[i] = low
  highpos : ∀ i : Fin 16, s.highpos[i] = high

/-- Nothing has been moved yet. -/
structure Servo.Idle (s : Servo) (low high : UInt16) : Prop extends s.Limits low high where
  pos : ∀ i : Fin 16, s.pos[i] = 0

/-- Behind every offset there is room for the longest pulse, and none is longer. -/
structure Servo.Staggered (s : Servo) (low high : UInt16) : Prop extends s.Limits low high where
  pos_le : ∀ i : Fin 16, s.pos[i] ≤ high
  room : ∀ i : Fin 16, s.offset[i].toNat + high.toNat ≤ 4095

/-- What holds of all places and of the new value holds of all places. -/
theorem forall_getElem_set {P : UInt16 → Prop} {v : Vector UInt16 16} (hv : ∀ j : Fin 16, P v[j])
    {i : Fin 16} {x : UInt16} (hx : P x) (j : Fin 16) : P (v.set i x)[j] := by
  by_cases hij : i = j
  · subst hij
    have hself : (v.set i x)[i] = x := Vector.getElem_set_self ..
    rwa [hself]
  · have hother : (v.set i x)[j] = v[j] :=
      Vector.getElem_set_ne i.isLt j.isLt (Fin.val_ne_of_ne hij)
    rw [hother]
    exact hv j

section Staggered

variable {low high : UInt16} {s : Servo}

theorem Servo.Staggered.setRegister (hs : s.Staggered low high) (reg value : UInt8) :
    (s.setRegister reg value).Staggered low high :=
  ⟨⟨hs.lowpos, hs.highpos⟩, hs.pos_le, hs.room⟩

theorem Servo.Staggered.setPos (hs : s.Staggered low high) (i : Fin 16) {x : UInt16}
    (hx : x ≤ high) : { s with pos := s.pos.set i x }.Staggered low high :=
  ⟨⟨hs.lowpos, hs.highpos⟩, forall_getElem_set (P := (· ≤ high)) hs.pos_le hx, hs.room⟩

theorem Servo.Staggered.setOffset (hs : s.Staggered low high) (i : Fin 16) {x : UInt16}
    (hx : x.toNat + high.toNat ≤ 4095) :
    { s with offset := s.offset.set i x }.Staggered low high :=
  ⟨⟨hs.lowpos, hs.highpos⟩, hs.pos_le,
    forall_getElem_set (P := fun x => x.toNat + high.toNat ≤ 4095) hs.room hx⟩

theorem Servo.Staggered.setUseOffset (hs : s.Staggered low high) (b : Bool) :
    { s with useOffset := b }.Staggered low high :=
  ⟨⟨hs.lowpos, hs.highpos⟩, hs.pos_le, hs.room⟩

theorem Servo.Staggered.room_start (hs : s.Staggered low high) (c : Channel) :
    (s.startOf c).toNat + high.toNat ≤ 4095 := by
  have hroom := hs.room c.index
  by_cases huse : s.useOffset
  · rwa [Servo.startOf, if_pos huse]
  · rw [Servo.startOf, if_neg huse, UInt16.toNat_zero]
    omega

theorem Servo.Staggered.room_pos (hs : s.Staggered low high) (i : Fin 16) :
    s.pos[i].toNat + (s.startOf (Channel.of i)).toNat ≤ 4095 := by
  have hpos : s.pos[i].toNat ≤ high.toNat := UInt16.le_iff_toNat_le.mp (hs.pos_le i)
  have hroom := hs.room_start (Channel.of i)
  omega

theorem Servo.Limits.nextStart (hs : s.Limits low high) (i : Fin 16) (x : UInt16) :
    s.nextStart i x
      = if ((x + high).toNat : Int) > 4095 - high.toNat then high / 2 else x + high := by
  rw [Servo.nextStart, hs.highpos i]
  exact congrArg (fun y => if ((x + high).toNat : Int) > 4095 - high.toNat then y / 2
    else x + high) (hs.highpos 0)

/-- The start of the next pulse leaves room for it. -/
theorem Servo.Limits.room_nextStart (hs : s.Limits low high) (hhigh : high ≤ 2730) (i : Fin 16)
    (x : UInt16) : (s.nextStart i x).toNat + high.toNat ≤ 4095 := by
  have hle : high.toNat ≤ 2730 := UInt16.le_iff_toNat_le.mp hhigh
  rw [hs.nextStart]
  by_cases hover : ((x + high).toNat : Int) > 4095 - high.toNat
  · rw [if_pos hover, UInt16.toNat_div]
    change high.toNat / 2 + high.toNat ≤ 4095
    omega
  · rw [if_neg hover]
    omega

theorem works_calculateOffsets_staggered (hs : s.Staggered low high) (hhigh : high ≤ 2730) :
    Works TakesWrites Servo.calculateOffsets s (fun _ t => t.Staggered low high)
      fun e t => e.IsBusError ∧ t.Staggered low high := by
  have hle : high.toNat ≤ 2730 := UInt16.le_iff_toNat_le.mp hhigh
  refine works_calculateFrom (I := fun t => t.Staggered low high)
    (X := fun x => x.toNat + high.toNat ≤ 4095) (fun _ _ _ hs => hs.setRegister _ _)
    (fun _ hs i => Or.inr (hs.room_pos i)) (fun _ i _ hs hx => hs.setOffset i hx)
    (fun _ i x hs _ => hs.room_nextStart hhigh i x) ?_ _ hs
  rw [UInt16.toNat_zero]
  omega

theorem works_calculateOffsets_idle (hs : s.Idle low high) :
    Works TakesWrites Servo.calculateOffsets s (fun _ t => t.Idle low high)
      fun e t => e.IsBusError ∧ t.Idle low high :=
  works_calculateFrom (I := fun t => t.Idle low high) (X := fun _ => True)
    (fun _ _ _ hs => ⟨⟨hs.lowpos, hs.highpos⟩, hs.pos⟩) (fun _ hs i => Or.inl (hs.pos i))
    (fun _ _ _ hs _ => ⟨⟨hs.lowpos, hs.highpos⟩, hs.pos⟩) (fun _ _ _ _ _ => trivial) trivial _ hs

end Staggered

/-- A step of any number of steps is between the limits. -/
theorem pwmValue_le {low high : UInt16} (h : low ≤ high) {position steps : UInt16}
    (hsteps : ¬ (steps < 1 ∨ steps > 4095)) (hposition : ¬ position > steps) :
    pwmValue low high position steps ≤ high := by
  have hle : low.toNat ≤ high.toNat := UInt16.le_iff_toNat_le.mp h
  have hpos : 0 < steps.toNat := UInt16.le_iff_toNat_le.mp (UInt16.not_lt.mp (not_or.mp hsteps).1)
  have hp : position.toNat ≤ steps.toNat := UInt16.le_iff_toNat_le.mp (UInt16.not_lt.mp hposition)
  have hlevel : levelOf Rat steps.toNat low.toNat high.toNat position.toNat ≤ high.toNat :=
    levelOf_le hle hpos hp
  have hcast : ((high.toNat - low.toNat : Int) : Rat) = (high.toNat : Rat) - low.toNat := by
    push_cast
    rfl
  have hspan : (0 : Rat) ≤ (high.toNat : Rat) - low.toNat :=
    sub_nonneg.mpr (Nat.cast_le.mpr hle)
  rw [UInt16.le_iff_toNat_le, pwmValue, hcast, toUInt16_toNat]
  · exact hlevel
  · positivity
  · exact Nat.lt_of_le_of_lt hlevel high.toNat_lt

/-- The call is within its documentation, and leaves the limits alone. -/
def ServoCall.Valid : ServoCall → Prop
  | .angle channel _ => ¬ (channel < 1 ∨ channel > 16)
  | .move channel position steps =>
      ¬ (channel < 1 ∨ channel > 16) ∧ ¬ (steps < 1 ∨ steps > 4095) ∧ ¬ position > steps
  | .offsetEnable | .offsetDisable => True
  | .setLowLimit .. | .setHighLimit .. => False

section Valid

variable {low high : UInt16} {s : Servo}

theorem works_move (hle : low ≤ high) (hs : s.Staggered low high) (c : Channel)
    {position steps : UInt16} (hsteps : ¬ (steps < 1 ∨ steps > 4095))
    (hposition : ¬ position > steps) :
    Works TakesWrites (Servo.move c.num position steps) s (fun _ t => t.Staggered low high)
      fun e t => e.IsBusError ∧ t.Staggered low high := by
  have hpulse : pwmValue s.lowpos[c.index] s.highpos[c.index] position steps ≤ high := by
    rw [hs.lowpos, hs.highpos]
    exact pwmValue_le hle hsteps hposition
  rw [Servo.move, dif_neg c.valid, if_neg hsteps, if_neg hposition]
  refine .fetch (.bind (.update (Q := fun _ t => t.Staggered low high ∧ t.offset = s.offset
    ∧ t.useOffset = s.useOffset) ⟨hs.setPos c.index hpulse, rfl, rfl⟩) ?_)
  rintro _ m ⟨hm, hoffset, huseOffset⟩
  have hlen : (pwmValue s.lowpos[c.index] s.highpos[c.index] position steps).toNat ≤ high.toNat :=
    UInt16.le_iff_toNat_le.mp hpulse
  have hroom := hm.room_start c
  have hwork := works_setPwm_pulse (I := fun t => t.Staggered low high)
    (fun _ _ _ hs => hs.setRegister _ _) c hm
    (x := pwmValue s.lowpos[c.index] s.highpos[c.index] position steps) (by omega)
  by_cases huse : s.useOffset
  · have hstart : m.startOf c = s.offset[c.index] := by
      rw [Servo.startOf, huseOffset, if_pos huse, hoffset]
    rw [if_pos huse]
    rwa [hstart] at hwork
  · have hstart : m.startOf c = 0 := by
      rw [Servo.startOf, huseOffset, if_neg huse]
    rw [if_neg huse]
    rwa [hstart, UInt16.add_zero] at hwork

theorem works_call (hle : low ≤ high) (hhigh : high ≤ 2730) (hs : s.Staggered low high)
    {call : ServoCall} (hvalid : call.Valid) :
    Works TakesWrites call.prog s (fun _ t => t.Staggered low high)
      fun e t => e.IsBusError ∧ t.Staggered low high := by
  cases call with
  | angle channel a =>
      exact works_move hle hs ⟨channel, hvalid⟩ (by decide) (not_position_gt a)
  | move channel position steps =>
      exact works_move hle hs ⟨channel, hvalid.1⟩ hvalid.2.1 hvalid.2.2
  | setLowLimit => exact hvalid.elim
  | setHighLimit => exact hvalid.elim
  | offsetEnable =>
      refine .bind (.update (Q := fun _ t => t.Staggered low high) (hs.setUseOffset true)) ?_
      exact fun _ _ hm => works_calculateOffsets_staggered hm hhigh
  | offsetDisable =>
      refine .bind (.update (Q := fun _ t => t.Staggered low high) (hs.setUseOffset false)) ?_
      exact fun _ _ hm => works_refreshChannels (fun _ _ _ hs => hs.setRegister _ _)
        (fun _ hs i => Or.inr (hs.room_pos i)) hm

end Valid

/-! ## The constructor -/

/-- A new object that has its limits. -/
def Servo.fresh (low high : UInt16) (registers : UInt8 → UInt8) : Servo :=
  { lowpos := .replicate 16 low, highpos := .replicate 16 high, registers }

section Construct

variable (registers : UInt8 → UInt8)

theorem idle_fresh (low high : UInt16) : (Servo.fresh low high registers).Idle low high :=
  ⟨⟨fun _ => Vector.getElem_replicate .., fun _ => Vector.getElem_replicate ..⟩,
    fun _ => Vector.getElem_replicate ..⟩

theorem staggered_fresh {low high : UInt16} (hhigh : high ≤ 4095) :
    (Servo.fresh low high registers).Staggered low high := by
  have hidle := idle_fresh registers low high
  refine ⟨hidle.toLimits, fun i => ?_, fun i => ?_⟩
  · rw [hidle.pos i]
    exact UInt16.zero_le
  · have hoffset : (Servo.fresh low high registers).offset[i] = 0 := Vector.getElem_replicate ..
    rw [hoffset, UInt16.toNat_zero, Nat.zero_add]
    exact UInt16.le_iff_toNat_le.mp hhigh

/-- The limits of all channels are set where they are in the period. -/
theorem ends_setLimit_iff {channelText pulseText : String}
    {write : (Vector UInt16 16 → Vector UInt16 16) → Servo → Servo} {limit : Rat} {s t : Servo} :
    Ends (setLimit channelText pulseText write limit 0) s () t
      ↔ limitPos limit ≤ 4095 ∧ t = write (fun _ => .replicate 16 (limitPos limit)) s := by
  rw [setLimit, dif_neg (by decide)]
  by_cases hover : limitPos limit > 4095
  · rw [if_pos hover]
    exact ⟨False.elim, fun h => absurd h.1 (UInt16.not_le.mpr hover)⟩
  · rw [if_neg hover, dif_pos (by decide)]
    constructor
    · rintro ⟨-, ht⟩
      exact ⟨UInt16.not_lt.mp hover, ht⟩
    · rintro ⟨-, ht⟩
      exact ⟨rfl, ht⟩

theorem ends_construct_iff {low high : Rat} {s₀ : Servo} :
    Ends (Servo.construct low high) { registers } () s₀
      ↔ limitPos low ≤ 4095 ∧ limitPos high ≤ 4095 ∧ Ends Servo.calculateOffsets
        (Servo.fresh (limitPos low) (limitPos high) registers) () s₀ := by
  rw [Servo.construct, Servo.setLowLimit, Servo.setHighLimit, ends_bind]
  constructor
  · rintro ⟨⟨⟩, m, hsetLow, hrest⟩
    obtain ⟨⟨⟩, m', hsetHigh, hcalculate⟩ := (ends_bind ..).mp hrest
    obtain ⟨hlow, rfl⟩ := ends_setLimit_iff.mp hsetLow
    obtain ⟨hhigh, rfl⟩ := ends_setLimit_iff.mp hsetHigh
    exact ⟨hlow, hhigh, hcalculate⟩
  · rintro ⟨hlow, hhigh, hcalculate⟩
    refine ⟨(), _, ends_setLimit_iff.mpr ⟨hlow, rfl⟩, (ends_bind ..).mpr ?_⟩
    exact ⟨(), _, ends_setLimit_iff.mpr ⟨hhigh, rfl⟩, hcalculate⟩

theorem exists_ends_construct (low high : Rat) (hlow : limitPos low ≤ 4095)
    (hhigh : limitPos high ≤ 4095) :
    ∃ s₀, Ends (Servo.construct low high) { registers } () s₀ := by
  obtain ⟨⟨⟩, s₀, hends⟩ := (works_calculateOffsets_idle
    (idle_fresh registers (limitPos low) (limitPos high))).returns.exists_endsUnder
  exact ⟨s₀, (ends_construct_iff registers).mpr ⟨hlow, hhigh, hends.ends⟩⟩

end Construct

/-! ## What the registers show stays -/

/-- The length of the pulse that the registers show. -/
def Servo.width (s : Servo) (c : Channel) : UInt16 :=
  s.getPwmOffTime c.num - s.getPwmOnTime c.num

theorem Servo.Shows.width {s : Servo} {c : Channel} (h : s.Shows c) :
    s.width c = c.entry s.pos := by
  rw [Servo.width, h.offTime, UInt16.add_sub_cancel]

theorem post_move_pos (c : Channel) (position steps : UInt16) (s : Servo) :
    Post (Servo.move c.num position steps) s fun _ t => c.entry t.pos
      = pwmValue (c.entry s.lowpos) (c.entry s.highpos) position steps := by
  rw [Servo.move, dif_neg c.valid]
  refine .check fun _ => .check fun _ => ?_
  rw [post_bind, post_fetch, post_bind, post_update]
  by_cases huse : s.useOffset
  · rw [if_pos huse]
    refine (post_setPwm c _ _ _).mono ?_
    rintro _ _ rfl
    exact c.entry_set ..
  · rw [if_neg huse]
    refine (post_setPwm c _ _ _).mono ?_
    rintro _ _ rfl
    exact c.entry_set ..

/-- The position that a call sets. -/
theorem post_of_moves {c : Channel} {call : ServoCall} (h : call.Moves c) (s : Servo) :
    Post call.prog s fun _ t => c.entry t.pos = call.pulse s c := by
  cases call with
  | angle channel a =>
      have hchannel : channel = c.num := h
      subst hchannel
      exact post_move_pos c _ _ s
  | move channel position steps =>
      obtain ⟨rfl, -, -⟩ := h
      exact post_move_pos c _ _ s
  | setLowLimit | setHighLimit | offsetEnable | offsetDisable => exact absurd h id

section Refused

variable {low high : UInt16} {s : Servo}

theorem post_refreshChannels_eq (s : Servo) :
    Post Servo.refreshChannels s fun _ t => t = { s with registers := t.registers } := by
  have hacc : Accesses (fun s t : Servo => t = { s with registers := t.registers })
      Servo.refreshChannels := accesses_refreshChannels (fun _ => rfl) fun _ _ _ => rfl
  intro a t hends
  refine hacc.stops (fun _ => rfl) ?_ (Or.inl ⟨a, hends⟩)
  intro s m t hsm hmt
  rw [hsm] at hmt
  exact hmt

/-- The places behind are not written again. -/
theorem post_calculateFrom_offset {i : Fin 16} (x : UInt16) {l : List (Fin 16)} (hi : i ∉ l)
    (s : Servo) : Post (calculateFrom x l) s fun _ t => t.offset[i] = s.offset[i] := by
  induction l generalizing x s with
  | nil => exact (post_pure ..).mpr rfl
  | cons j rest ih =>
      obtain ⟨hij, hrest⟩ := List.ne_and_not_mem_of_not_mem_cons hi
      rw [calculateFrom, post_bind, post_update, post_bind, post_fetch, post_bind]
      refine (post_refreshChannels_eq _).mono ?_
      intro _ m hm
      refine (ih _ hrest m).mono ?_
      intro _ t ht
      rw [ht, hm]
      exact Vector.getElem_set_ne j.isLt i.isLt (Fin.val_ne_of_ne (Ne.symm hij))

/-- The start of the second pulse. -/
theorem post_calculateFrom_second (x : UInt16) (i j : Fin 16) (rest : List (Fin 16))
    (hj : j ∉ rest) (s : Servo) :
    Post (calculateFrom x (i :: j :: rest)) s fun _ t => t.offset[j] = s.nextStart i x := by
  rw [calculateFrom, post_bind, post_update, post_bind, post_fetch, post_bind]
  refine (post_refreshChannels_eq _).mono ?_
  intro _ m hm
  rw [calculateFrom, post_bind, post_update, post_bind, post_fetch, post_bind]
  refine (post_refreshChannels_eq _).mono ?_
  intro _ m' hm'
  refine (post_calculateFrom_offset _ hj m').mono ?_
  intro _ t ht
  rw [ht, hm']
  exact Vector.getElem_set_self ..

/-- The end of a pulse has to be in the period. -/
theorem not_delivers_setPwm (c : Channel) {onTime offTime : UInt16} (hoff : offTime > 4095)
    {Q : List (Answered I2c I2c.Answer) → Unit → Servo → Prop} :
    ¬ Delivers TakesWrites (setPwm c.num onTime offTime) s Q := by
  rw [setPwm, if_neg c.valid]
  by_cases hon : onTime > 4095
  · rw [if_pos hon]
    exact id
  · rw [if_neg hon, if_pos hoff]
    exact id

theorem pwmValue_last (hle : low ≤ high) : pwmValue low high 4095 4095 = high := by
  rw [← UInt16.toNat_inj, pwmValue_toNat hle (Nat.le_refl _)]
  exact levelOf_last (by decide)

/-- The longest pulse does not fit behind an offset without room for it. -/
theorem not_delivers_move (hle : low ≤ high) (hs : s.Limits low high) (huse : s.useOffset = true)
    {c : Channel} (hover : 4095 < (high + c.entry s.offset).toNat)
    {Q : List (Answered I2c I2c.Answer) → Unit → Servo → Prop} :
    ¬ Delivers TakesWrites (Servo.move c.num 4095 4095) s Q := by
  have hpulse : pwmValue s.lowpos[c.index] s.highpos[c.index] 4095 4095 = high := by
    rw [hs.lowpos, hs.highpos, pwmValue_last hle]
  rw [Servo.move, dif_neg c.valid, if_neg (by decide), if_neg (by decide), delivers_bind,
    delivers_fetch, delivers_bind, delivers_update, if_pos huse]
  refine not_delivers_setPwm c ?_
  change 4095 < pwmValue s.lowpos[c.index] s.highpos[c.index] 4095 4095 + s.offset[c.index]
  rw [hpulse, UInt16.lt_iff_toNat_lt]
  exact hover

/-- What `offset_enable` can leave of a servo that has not moved. -/
theorem exists_ends_offsetEnable (hs : s.Idle low high) :
    ∃ t, Ends Servo.offsetEnable s () t ∧ t.Idle low high ∧ t.useOffset = true
      ∧ t.offset[(1 : Fin 16)] = s.nextStart 0 0 := by
  have hm : { s with useOffset := true }.Idle low high := ⟨⟨hs.lowpos, hs.highpos⟩, hs.pos⟩
  have hwork := works_calculateOffsets_idle hm
  obtain ⟨⟨⟩, t, hends⟩ := hwork.returns.exists_endsUnder
  have huse : Accesses (fun s t : Servo => t.useOffset = s.useOffset) Servo.calculateOffsets :=
    accesses_calculateFrom (R := fun s t : Servo => t.useOffset = s.useOffset) (fun _ => rfl)
      (fun _ _ _ => rfl) (fun _ _ _ => rfl) _ _
  have hsecond : ∀ m, Post Servo.calculateOffsets m fun _ t =>
      t.offset[(1 : Fin 16)] = m.nextStart 0 0 :=
    post_calculateFrom_second 0 0 1 (List.finRange 16).tail.tail (by decide)
  refine ⟨t, (ends_bind ..).mpr ⟨(), _, ⟨rfl, rfl⟩, hends.ends⟩,
    hwork.ends () t hends.ends, ?_, ?_⟩
  · exact huse.stops (fun _ => rfl) (fun _ _ _ hsm hmt => hmt.trans hsm)
      (Or.inl ⟨(), hends.ends⟩)
  · exact hsecond { s with useOffset := true } () t hends.ends

/-- Half a pulse and a whole one are longer than the period. -/
theorem Servo.Limits.no_room (hs : s.Limits low high) (hover : ¬ high ≤ 2730)
    (hhigh : high ≤ 4095) : 4095 < (high + s.nextStart 0 0).toNat := by
  have hlt : 2730 < high.toNat := Nat.lt_of_not_le fun h => hover (UInt16.le_iff_toNat_le.mpr h)
  have hle : high.toNat ≤ 4095 := UInt16.le_iff_toNat_le.mp hhigh
  have hhalf : (high / 2).toNat = high.toNat / 2 := UInt16.toNat_div ..
  have hsum : high.toNat + high.toNat / 2 < 2 ^ 16 := by omega
  rw [hs.nextStart, if_pos, UInt16.toNat_add, hhalf, Nat.mod_eq_of_lt hsum]
  · omega
  · rw [UInt16.zero_add]
    omega

/-- Valid calls, whatever they throw, leave room. -/
theorem staggered_of_run (hle : low ≤ high) (hhigh : high ≤ 2730) {s₀ : Servo}
    (h0 : s₀.Staggered low high) {h : List (Servo × ServoCall × Option Thrown)}
    (hr : ServoRun s₀ h s) (hvalid : ∀ x ∈ h, x.2.1.Valid) : s.Staggered low high := by
  induction hr with
  | start => exact h0
  | @snoc h s t x _ hstep ih =>
      obtain ⟨hlast, hrest⟩ := List.forall_mem_cons.mp hvalid
      have hwork := works_call hle hhigh (ih hrest) hlast
      cases hstep with
      | returned hends => exact hwork.ends () t hends
      | threw hexits => exact (hwork.exits _ t hexits).2

end Refused

end DemoCannon
