import DemoCannon.Lib.Calls
import DemoCannon.Lib.Quantize
import DemoCannon.Tracking
import Mathlib.Data.Rat.Floor

/-! # The servo driver

    `ServoPi.cpp` from an angle down to the registers of the PWM controller.
    An angle is clamped, becomes one of 4095 steps and the step an off time
    between the limits of its channel; each function checks its arguments and
    throws.  The driver is a program whose calls are those to the I2C device. -/

namespace DemoCannon

open Interaction Interaction.Program Quantize

/-! ## State, device and exceptions -/

/-- `Servo`, with the registers of its controller as they were last written. -/
structure Servo where
  pos : Vector UInt16 16 := .replicate 16 0
  lowpos : Vector UInt16 16 := .replicate 16 0
  highpos : Vector UInt16 16 := .replicate 16 0
  offset : Vector UInt16 16 := .replicate 16 0
  useOffset : Bool := false
  registers : UInt8 → UInt8 := fun _ => 0

/-- The calls of `write_byte_data`. -/
inductive I2c where
  | openPort
  | ioctl
  | write (reg value : UInt8)

def I2c.Answer (_ : I2c) : Type := Int

/-- The exceptions of the driver. -/
inductive Thrown where
  | outOfRange (what : String)
  | runtimeError (what : String)
  deriving DecidableEq, Repr

abbrev ServoProg := Program Servo I2c I2c.Answer Thrown

/-- The conversion of a number to `uint16_t`, which truncates. -/
def toUInt16 (x : Rat) : UInt16 := .ofInt (x.num.tdiv x.den)

/-! ## `PWM` -/

def Servo.setRegister (s : Servo) (reg value : UInt8) : Servo :=
  { s with registers := fun r => if r = reg then value else s.registers r }

/-- `write_byte_data`. -/
def writeByteData (reg value : UInt8) : ServoProg Unit := do
  let i2cbus : Int ← ask .openPort
  if i2cbus < 0 then
    .exit (.runtimeError "write_byte_data: Failed to open i2c port for write")
  else
    let set : Int ← ask .ioctl
    if set < 0 then
      .exit (.runtimeError "write_byte_data: Failed to write to i2c port for write")
    else
      let written : Int ← ask (.write reg value)
      if written ≠ 2 then
        .exit (.runtimeError "write_byte_data: Failed to write to i2c device for write")
      else update fun s => s.setRegister reg value

def led0OnL : UInt8 := 0x06
def led0OnH : UInt8 := 0x07
def led0OffL : UInt8 := 0x08
def led0OffH : UInt8 := 0x09

/-- `set_pwm`. -/
def setPwm (channel : UInt8) (onTime offTime : UInt16) : ServoProg Unit :=
  if channel < 1 ∨ channel > 16 then .exit (.outOfRange "set_pwm: channel out of range")
  else if onTime > 4095 then .exit (.outOfRange "set_pwm: on_time out of range")
  else if offTime > 4095 then .exit (.outOfRange "set_pwm: off_time out of range")
  else if onTime > offTime then
    .exit (.outOfRange "set_pwm: on_time greater than off_time")
  else do
    let channel := channel - 1
    writeByteData (led0OnL + 4 * channel) (onTime &&& 0xFF).toUInt8
    writeByteData (led0OnH + 4 * channel) (onTime >>> 8).toUInt8
    writeByteData (led0OffL + 4 * channel) (offTime &&& 0xFF).toUInt8
    writeByteData (led0OffH + 4 * channel) (offTime >>> 8).toUInt8

/-- The value of `get_pwm_off_time`, from the registers. -/
def Servo.getPwmOffTime (s : Servo) (channel : UInt8) : UInt16 :=
  let channel := channel - 1
  let lowbyte := s.registers (led0OffL + 4 * channel)
  let highbyte := s.registers (led0OffH + 4 * channel)
  lowbyte.toUInt16 ||| highbyte.toUInt16 <<< 8

/-! ## `Servo` -/

/-- A channel number that the checks let through. -/
structure Channel where
  num : UInt8
  valid : ¬ (num < 1 ∨ num > 16)

/-- Where a channel is in the vectors. -/
def Channel.index (c : Channel) : Fin 16 :=
  ⟨c.num.toNat - 1, by
    have hvalid := c.valid
    grind [UInt8.lt_iff_toNat_lt]⟩

/-- The pulse of a position, in the formula of `move`.  It is exact before it is cut off, and
    `double` is not: `pwmValue 153 460 37 37` is 460, for which `move` computes 459. -/
def pwmValue (low high position steps : UInt16) : UInt16 :=
  toUInt16 (((high.toNat - low.toNat : Int) : Rat) / steps.toNat * position.toNat + low.toNat)

/-- `Servo::move`. -/
def Servo.move (channel : UInt8) (position steps : UInt16) : ServoProg Unit :=
  if hchannel : channel < 1 ∨ channel > 16 then
    .exit (.outOfRange "move: channel out of range")
  else if steps < 1 ∨ steps > 4095 then .exit (.outOfRange "move: steps out of range")
  else if position > steps then
    .exit (.outOfRange "move: position greater than steps")
  else do
    let s ← fetch
    let i := (⟨channel, hchannel⟩ : Channel).index
    let pwmValue := pwmValue s.lowpos[i] s.highpos[i] position steps
    update fun s => { s with pos := s.pos.set i pwmValue }
    if s.useOffset then setPwm channel s.offset[i] (pwmValue + s.offset[i])
    else setPwm channel 0 pwmValue

/-- The position of an angle, in the formulas of `angle`. -/
def position (angle : Rat) : UInt16 :=
  let angle := if angle > 90 then 90 else if angle < -90 then -90 else angle
  let fangle := angle + 90
  toUInt16 (fangle * (4095 / 180))

/-- `Servo::angle`. -/
def Servo.angle (channel : UInt8) (angle : Rat) : ServoProg Unit :=
  move channel (position angle) 4095

/-! ## The off time of an angle -/

/-- A number that fits is only truncated. -/
theorem toUInt16_toNat {x : Rat} (h0 : 0 ≤ x) (hfits : ⌊x⌋₊ < 2 ^ 16) :
    (toUInt16 x).toNat = ⌊x⌋₊ := by
  have hfloor : x.num.tdiv x.den = ⌊x⌋ := by
    rw [Int.tdiv_eq_ediv_of_nonneg (Rat.num_nonneg.mpr h0)]
    exact (Rat.floor_def x).symm
  have hnat : (⌊x⌋₊ : Int) = ⌊x⌋ := Int.natCast_floor_eq_floor h0
  rw [toUInt16, hfloor, ← hnat, UInt16.ofInt, UInt16.toNat_ofNat']
  omega

/-- The clamp of `angle`, in one expression. -/
def clampAngle (angle : Rat) : Rat := max (-90) (min 90 angle)

theorem clampAngle_mono : Monotone clampAngle := fun _ _ h =>
  max_le_max_left _ (min_le_min_left _ h)

theorem position_toNat (angle : Rat) :
    (position angle).toNat = stepOf 4095 (-90) 90 (clampAngle angle) := by
  have hclamp : (if angle > 90 then 90 else if angle < -90 then -90 else angle)
      = clampAngle angle := by
    grind [clampAngle]
  have hlow : -90 ≤ clampAngle angle := le_max_left _ _
  have hhigh : clampAngle angle ≤ 90 := max_le (by norm_num) (min_le_left _ _)
  have hscale : (clampAngle angle + 90) * (4095 / 180)
      = (clampAngle angle - -90) * ((4095 : Nat) / (90 - -90)) := by norm_num
  have hle : stepOf 4095 (-90) 90 (clampAngle angle) ≤ 4095 := stepOf_le (by norm_num) hhigh
  rw [position, hclamp, toUInt16_toNat]
  · rw [hscale, stepOf]
  · exact mul_nonneg (by linarith) (by norm_num)
  · rw [hscale]
    exact Nat.lt_of_le_of_lt hle (by decide)

/-- No position is out of the steps. -/
theorem position_le (angle : Rat) : (position angle).toNat ≤ 4095 := by
  rw [position_toNat]
  exact stepOf_le (by norm_num) (max_le (by norm_num) (min_le_left _ _))

theorem position_mono {a b : Rat} (h : a ≤ b) : (position a).toNat ≤ (position b).toNat := by
  rw [position_toNat, position_toNat]
  exact stepOf_mono (by norm_num) (clampAngle_mono h)

section Pulse

variable {low high : UInt16}

theorem pwmValue_toNat (h : low ≤ high) {p : UInt16} (hp : p.toNat ≤ 4095) :
    (pwmValue low high p 4095).toNat = levelOf Rat 4095 low.toNat high.toNat p.toNat := by
  have hle : low.toNat ≤ high.toNat := UInt16.le_iff_toNat_le.mp h
  have hlevel : levelOf Rat 4095 low.toNat high.toNat p.toNat < 2 ^ 16 :=
    Nat.lt_of_le_of_lt (levelOf_le hle (by decide) hp) high.toNat_lt
  have hcast : ((high.toNat - low.toNat : Int) : Rat) = (high.toNat : Rat) - low.toNat := by
    push_cast
    rfl
  have hspan : (0 : Rat) ≤ (high.toNat : Rat) - low.toNat :=
    sub_nonneg.mpr (Nat.cast_le.mpr hle)
  rw [pwmValue, hcast, toUInt16_toNat]
  · rfl
  · positivity
  · exact hlevel

/-- The off time that `angle` programs between the limits. -/
def offTime (low high : UInt16) (angle : Rat) : UInt16 :=
  pwmValue low high (position angle) 4095

theorem offTime_mono (h : low ≤ high) {a b : Rat} (hab : a ≤ b) :
    offTime low high a ≤ offTime low high b := by
  rw [UInt16.le_iff_toNat_le, offTime, offTime, pwmValue_toNat h (position_le a),
    pwmValue_toNat h (position_le b)]
  exact levelOf_mono (UInt16.le_iff_toNat_le.mp h) (position_mono hab)

theorem offTime_mem (h : low ≤ high) (a : Rat) :
    low ≤ offTime low high a ∧ offTime low high a ≤ high := by
  have hle : low.toNat ≤ high.toNat := UInt16.le_iff_toNat_le.mp h
  rw [UInt16.le_iff_toNat_le, UInt16.le_iff_toNat_le, offTime,
    pwmValue_toNat h (position_le a)]
  exact ⟨le_levelOf hle _, levelOf_le hle (by decide) (position_le a)⟩

end Pulse

/-! ## What the functions do -/

/-- An exception of the I2C device. -/
def Thrown.IsBusError (e : Thrown) : Prop := ∃ what, e = .runtimeError what

/-- The answers of a device that accepts what is written to it. -/
def TakesWrites : (c : I2c) → c.Answer → Prop
  | .openPort, (i2cbus : Int) => 0 ≤ i2cbus
  | .ioctl, (set : Int) => 0 ≤ set
  | .write _ _, (written : Int) => written = 2

/-- All that `p` can do from `s`: leave `t`, or throw because of the device.
    If the device accepts what is written, it does the first. -/
structure Does (p : ServoProg Unit) (s t : Servo) : Prop where
  ends : Post p s fun _ u => u = t
  exits : ExitPost p s Thrown.IsBusError
  returns : Delivers TakesWrites p s fun _ _ u => u = t

theorem Does.bind {p : ServoProg Unit} {q : Unit → ServoProg Unit} {s m t : Servo}
    (hp : Does p s m) (hq : Does (q ()) m t) : Does (p >>= q) s t where
  ends := by
    refine (post_bind p q s _).mpr (hp.ends.mono ?_)
    rintro ⟨⟩ _ rfl
    exact hq.ends
  exits := by
    refine (exitPost_bind p q).mpr ⟨hp.exits, hp.ends.mono ?_⟩
    rintro ⟨⟩ _ rfl
    exact hq.exits
  returns := by
    refine (delivers_bind p q _).mpr (hp.returns.mono ?_)
    rintro _ ⟨⟩ _ rfl
    exact hq.returns

theorem Does.update (f : Servo → Servo) (s : Servo) : Does (Program.update f) s (f s) where
  ends := (post_update f s _).mpr rfl
  exits := (exitPost_update f).mpr trivial
  returns := (delivers_update f _).mpr rfl

theorem Does.fetch {q : Servo → ServoProg Unit} {s t : Servo} (h : Does (q s) s t) :
    Does (Program.fetch >>= q) s t :=
  ⟨h.ends, h.exits, h.returns⟩

/-- A call whose answer is checked: without acceptance there is an exception. -/
theorem Does.ask {c : I2c} {q : c.Answer → ServoProg Unit} {s t : Servo}
    (hcan : ∃ r, TakesWrites c r) (haccept : ∀ r, TakesWrites c r → Does (q r) s t)
    (hrefuse : ∀ r, ¬ TakesWrites c r → ∃ what, q r = .exit (.runtimeError what)) :
    Does (Program.ask c >>= q) s t where
  ends := by
    rintro a u ⟨r, hends⟩
    by_cases hr : TakesWrites c r
    · exact (haccept r hr).ends a u hends
    · obtain ⟨what, hq⟩ := hrefuse r hr
      have hexit : Ends (q r) s a u := hends
      rw [hq] at hexit
      exact hexit.elim
  exits := by
    rintro e u ⟨r, hexits⟩
    by_cases hr : TakesWrites c r
    · exact (haccept r hr).exits e u hexits
    · obtain ⟨what, hq⟩ := hrefuse r hr
      have hexit : Exits (q r) s e u := hexits
      rw [hq] at hexit
      exact ⟨what, hexit.1⟩
  returns := ⟨hcan, fun r hr => (haccept r hr).returns⟩

theorem does_writeByteData (reg value : UInt8) (s : Servo) :
    Does (writeByteData reg value) s (s.setRegister reg value) := by
  refine Does.ask ⟨(0 : Int), Int.le_refl 0⟩ ?_ fun r hr => ⟨_, if_pos (Int.not_le.mp hr)⟩
  intro i2cbus hopen
  rw [if_neg (Int.not_lt.mpr hopen)]
  refine Does.ask ⟨(0 : Int), Int.le_refl 0⟩ ?_ fun r hr => ⟨_, if_pos (Int.not_le.mp hr)⟩
  intro set hioctl
  rw [if_neg (Int.not_lt.mpr hioctl)]
  refine Does.ask ⟨(2 : Int), rfl⟩ ?_ fun r hr => ⟨_, if_pos hr⟩
  intro (written : Int) (hwrite : written = 2)
  rw [if_neg (not_not.mpr hwrite)]
  exact Does.update _ s

/-- The registers of a pulse. -/
def Servo.setPulse (s : Servo) (channel : UInt8) (onTime offTime : UInt16) : Servo :=
  (((s.setRegister (led0OnL + 4 * (channel - 1)) (onTime &&& 0xFF).toUInt8).setRegister
    (led0OnH + 4 * (channel - 1)) (onTime >>> 8).toUInt8).setRegister
    (led0OffL + 4 * (channel - 1)) (offTime &&& 0xFF).toUInt8).setRegister
    (led0OffH + 4 * (channel - 1)) (offTime >>> 8).toUInt8

/-- The three checks of `set_pwm` let through a pulse in the period. -/
theorem does_setPwm (c : Channel) {onTime offTime : UInt16} (hon : onTime ≤ offTime)
    (hoff : offTime ≤ 4095) (s : Servo) :
    Does (setPwm c.num onTime offTime) s (s.setPulse c.num onTime offTime) := by
  rw [setPwm, if_neg c.valid, if_neg (UInt16.not_lt.mpr (UInt16.le_trans hon hoff)),
    if_neg (UInt16.not_lt.mpr hoff), if_neg (UInt16.not_lt.mpr hon)]
  refine (does_writeByteData _ _ s).bind ?_
  refine (does_writeByteData _ _ _).bind ?_
  refine (does_writeByteData _ _ _).bind ?_
  exact does_writeByteData _ _ _

/-- The two bytes of a word, put together. -/
theorem bytes_of_word (x : UInt16) :
    (x &&& 0xFF).toUInt8.toUInt16 ||| (x >>> 8).toUInt8.toUInt16 <<< 8 = x := by
  have hx := x.toNat_lt
  have hlow : (x &&& 0xFF).toUInt8.toUInt16.toNat = x.toNat % 256 := by
    have hmask : x.toNat &&& 255 = x.toNat % 256 := Nat.and_two_pow_sub_one_eq_mod x.toNat 8
    change (x.toNat &&& 255) % 256 = x.toNat % 256
    rw [hmask, Nat.mod_mod]
  have hhigh : ((x >>> 8).toUInt8.toUInt16 <<< 8).toNat = (x.toNat / 256) <<< 8 := by
    simp [Nat.shiftRight_eq_div_pow, Nat.shiftLeft_eq]
    omega
  apply UInt16.toNat_inj.mp
  rw [UInt16.toNat_or, hlow, hhigh, Nat.or_comm, ← Nat.shiftLeft_add_eq_or_of_lt (by omega),
    Nat.shiftLeft_eq]
  omega

/-- What `get_pwm_off_time` reads is what was written. -/
theorem getPwmOffTime_setPulse (s : Servo) (channel : UInt8) (onTime offTime : UInt16) :
    (s.setPulse channel onTime offTime).getPwmOffTime channel = offTime := by
  have hne : led0OffL + 4 * (channel - 1) ≠ led0OffH + 4 * (channel - 1) := by
    intro h
    exact absurd ((UInt8.add_left_inj _).mp h) (by decide)
  simp only [Servo.getPwmOffTime, Servo.setPulse, Servo.setRegister, if_neg hne, if_true]
  exact bytes_of_word offTime

/-- A channel whose limits are in order and in the period; the offsets are off. -/
structure Servo.Limited (s : Servo) (c : Channel) (low high : UInt16) : Prop where
  lowpos : s.lowpos[c.index] = low
  highpos : s.highpos[c.index] = high
  useOffset : s.useOffset = false
  low_le_high : low ≤ high
  high_le : high ≤ 4095

/-- What `angle` leaves: the off time of the angle, in `pos` and in the registers. -/
def Servo.aimed (s : Servo) (c : Channel) (low high : UInt16) (angle : Rat) : Servo :=
  { s with pos := s.pos.set c.index (offTime low high angle) }.setPulse c.num 0
    (offTime low high angle)

theorem does_angle {s : Servo} {c : Channel} {low high : UInt16} (hs : s.Limited c low high)
    (angle : Rat) : Does (Servo.angle c.num angle) s (s.aimed c low high angle) := by
  have hposition : ¬ position angle > 4095 := by
    rw [gt_iff_lt, UInt16.lt_iff_toNat_lt]
    exact Nat.not_lt.mpr (position_le angle)
  have hpulse : pwmValue s.lowpos[c.index] s.highpos[c.index] (position angle) 4095
      = offTime low high angle := by
    rw [hs.lowpos, hs.highpos, offTime]
  have hoff : pwmValue s.lowpos[c.index] s.highpos[c.index] (position angle) 4095 ≤ 4095 := by
    rw [hpulse]
    exact UInt16.le_trans (offTime_mem hs.low_le_high angle).2 hs.high_le
  rw [Servo.angle, Servo.move, dif_neg c.valid, if_neg (by decide), if_neg hposition]
  refine Does.fetch ((Does.update _ s).bind ?_)
  rw [if_neg (ne_true_of_eq_false hs.useOffset), Servo.aimed, ← hpulse]
  exact does_setPwm c (UInt16.zero_le) hoff _

/-- The off time that a call of `angle` leaves. -/
theorem getPwmOffTime_of_ends {s t : Servo} {c : Channel} {low high : UInt16}
    (hs : s.Limited c low high) {angle : Rat} (h : Ends (Servo.angle c.num angle) s () t) :
    t.getPwmOffTime c.num = offTime low high angle := by
  rw [(does_angle hs angle).ends () t h]
  exact getPwmOffTime_setPulse _ c.num 0 _

/-! ## The aim of the server -/

/-- `PAN_SERVO` is 1 and `TILT_SERVO` is 2. -/
def ServoNum.channel : ServoNum → Channel
  | .panServo => ⟨1, by decide⟩
  | .tiltServo => ⟨2, by decide⟩

/-- The angle that `ServoAngle` passed to `angle`. -/
def Server.commanded (m : Server) : ServoNum → Rat
  | .panServo => m.panServo
  | .tiltServo => m.tiltServo

/-- It is between -15 and 15 degrees, whatever was requested. -/
theorem post_servoAngle_commanded (num : ServoNum) (m : Server) :
    Post (servoAngle num) m fun _ t => -15 ≤ t.commanded num ∧ t.commanded num ≤ 15 := by
  refine (post_servoAngle num m).mono ?_
  rintro _ _ rfl
  have hclamp := num.clamp_inside (m.angle num)
  cases num <;> exact hclamp

/-- **Aim commands are monotone and stay in the range of the servo.**  On a
    channel with limits in order `angle` throws nothing but what the I2C
    device gives rise to, and returns if that accepts what is written.  A
    greater angle is programmed with a greater off time, between the limits.
    The angles of `ServoAngle` stay between the off times of -15 and 15
    degrees. -/
theorem angle_mono_in_range (c : Channel) (low high : UInt16) (s s' : Servo)
    (hs : s.Limited c low high) (hs' : s'.Limited c low high) (a b : Rat) (hab : a ≤ b) :
    ExitPost (Servo.angle c.num a) s Thrown.IsBusError
    ∧ Delivers TakesWrites (Servo.angle c.num a) s (fun _ _ _ => True)
    ∧ (∀ t t', Ends (Servo.angle c.num a) s () t → Ends (Servo.angle c.num b) s' () t' →
        t.getPwmOffTime c.num ≤ t'.getPwmOffTime c.num
        ∧ low ≤ t.getPwmOffTime c.num ∧ t'.getPwmOffTime c.num ≤ high)
    ∧ ∀ num : ServoNum, num.channel = c → ∀ m m', Ends (servoAngle num) m () m' →
        ∀ t lo hi, Ends (Servo.angle c.num (m'.commanded num)) s () t →
          Ends (Servo.angle c.num (-15)) s' () lo → Ends (Servo.angle c.num 15) s' () hi →
          lo.getPwmOffTime c.num ≤ t.getPwmOffTime c.num
          ∧ t.getPwmOffTime c.num ≤ hi.getPwmOffTime c.num := by
  have hle := hs.low_le_high
  refine ⟨(does_angle hs a).exits, (does_angle hs a).returns.mono fun _ _ _ _ => trivial,
    ?_, ?_⟩
  · intro t t' ht ht'
    rw [getPwmOffTime_of_ends hs ht, getPwmOffTime_of_ends hs' ht']
    exact ⟨offTime_mono hle hab, (offTime_mem hle a).1, (offTime_mem hle b).2⟩
  · intro num _ m m' hm t lo hi ht hlo hhi
    obtain ⟨hmin, hmax⟩ := post_servoAngle_commanded num m () m' hm
    rw [getPwmOffTime_of_ends hs ht, getPwmOffTime_of_ends hs' hlo,
      getPwmOffTime_of_ends hs' hhi]
    exact ⟨offTime_mono hle hmin, offTime_mono hle hmax⟩

/-- What `set_low_limit` and `set_high_limit` make of a pulse length in
    milliseconds, at the frequency of 50; the rounding of `double` is left out. -/
def limitPos (limit : Rat) : UInt16 := toUInt16 (4096 * (limit / 1000) * 50)

/-- A servo with the limits of `OpenServos`. -/
def demoServo : Servo :=
  { lowpos := .replicate 16 (limitPos 0.75), highpos := .replicate 16 (limitPos 2.25) }

theorem demoServo_limited : demoServo.Limited ServoNum.panServo.channel 153 460 := by
  refine ⟨?_, ?_, rfl, ?_, ?_⟩ <;> decide +kernel

/-- From -20 to 15 degrees on the pan channel. -/
theorem demoServo_mono_in_range :
    ∃ t t', Ends (Servo.angle 1 (-20)) demoServo () t ∧ Ends (Servo.angle 1 15) demoServo () t'
      ∧ t.getPwmOffTime 1 ≤ t'.getPwmOffTime 1
      ∧ 153 ≤ t.getPwmOffTime 1 ∧ t'.getPwmOffTime 1 ≤ 460 := by
  have hs := demoServo_limited
  obtain ⟨-, hreturns, hrange, -⟩ := angle_mono_in_range _ 153 460 demoServo demoServo hs hs
    (-20) 15 (by norm_num)
  obtain ⟨-, hreturns', -, -⟩ := angle_mono_in_range _ 153 460 demoServo demoServo hs hs
    15 15 (by norm_num)
  obtain ⟨⟨⟩, t, ht⟩ := hreturns.exists_endsUnder
  obtain ⟨⟨⟩, t', ht'⟩ := hreturns'.exists_endsUnder
  exact ⟨t, t', ht.ends, ht'.ends, hrange t t' ht.ends ht'.ends⟩

end DemoCannon
