/-! # The message header: state words, message types and frames

    `Message.h` fixes what client and server exchange: the system state as one
    32-bit word with a base state and four flags, the message types, and the
    eight-byte header (length and type, both in network order) in front of
    every payload. -/

namespace DemoCannon

/-- A byte string, as the source holds it in `char` arrays. -/
abbrev Bytes := List UInt8

/-! ## The system state word -/

/-- `SystemState_t`, an `unsigned int`. -/
abbrev SystemState := BitVec 32

namespace SystemState

def unknown : SystemState := 0x0
def safe : SystemState := 0x1
def prearmed : SystemState := 0x2
def engageAuto : SystemState := 0x4
def armedManual : SystemState := 0x8
def armed : SystemState := 0x10
def firing : SystemState := 0x20
def laserOn : SystemState := 0x40
def calibOn : SystemState := 0x80

def clearLaserMask : SystemState := ~~~laserOn
def clearFiringMask : SystemState := ~~~firing
def clearArmedMask : SystemState := ~~~armed
def clearCalibMask : SystemState := ~~~calibOn
def clearLaserFiringArmedCalibMask : SystemState :=
  ~~~(laserOn ||| firing ||| armed ||| calibOn)

/-- The base state: the word without its four flags.  Bits above `0x80` are
    not flags and stay in it. -/
def base (s : SystemState) : SystemState := s &&& clearLaserFiringArmedCalibMask

/-- The C test `s & flag`. -/
def has (s flag : SystemState) : Bool := s &&& flag != 0

/-- The four flags, each a single bit outside the base. -/
inductive IsFlag : SystemState → Prop where
  | armed : IsFlag armed
  | firing : IsFlag firing
  | laserOn : IsFlag laserOn
  | calibOn : IsFlag calibOn

/-- Testing for a flag is reading one bit of the word. -/
theorem IsFlag.has_eq_bit {f : SystemState} (hf : IsFlag f) :
    ∃ i, i < 32 ∧ f = BitVec.twoPow 32 i ∧ ∀ s, has s f = s.getLsbD i := by
  obtain ⟨i, hi, rfl⟩ : ∃ i, i < 32 ∧ f = BitVec.twoPow 32 i := by
    cases hf with
    | armed => exact ⟨4, by decide, by decide⟩
    | firing => exact ⟨5, by decide, by decide⟩
    | laserOn => exact ⟨6, by decide, by decide⟩
    | calibOn => exact ⟨7, by decide, by decide⟩
  refine ⟨i, hi, rfl, ?_⟩
  intro s
  have hne : BitVec.twoPow 32 i ≠ 0 := by
    intro h0
    have hbit := congrArg (fun x => x.getLsbD i) h0
    simp [hi] at hbit
  rw [has, BitVec.and_twoPow]
  cases hs : s.getLsbD i with
  | true => rw [if_pos rfl]; exact bne_iff_ne.mpr hne
  | false => rw [if_neg (by simp)]; rfl

theorem has_or (s f : SystemState) {g : SystemState} (hg : IsFlag g) :
    has (s ||| f) g = (has s g || has f g) := by
  obtain ⟨i, -, -, h⟩ := hg.has_eq_bit
  rw [h, h, h, BitVec.getLsbD_or]

theorem has_clear (s f : SystemState) {g : SystemState} (hg : IsFlag g) :
    has (s &&& ~~~f) g = (has s g && !has f g) := by
  obtain ⟨i, hi, -, h⟩ := hg.has_eq_bit
  rw [h, h, h, BitVec.getLsbD_and, BitVec.getLsbD_not]
  simp [hi]

/-- Setting a flag that is set changes nothing. -/
theorem or_flag_of_has {s f : SystemState} (hf : IsFlag f)
    (h : has s f = true) : s ||| f = s := by
  obtain ⟨i, hi, rfl, hbit⟩ := hf.has_eq_bit
  rw [hbit] at h
  -- bit by bit: only the flag's own bit could change
  apply BitVec.eq_of_getLsbD_eq
  intro j hj
  rw [BitVec.getLsbD_or, BitVec.getLsbD_twoPow]
  by_cases hij : i = j
  · subst hij
    simp [h]
  · simp [hij]

/-- Clearing a flag that is clear changes nothing. -/
theorem clear_flag_of_not_has {s f : SystemState} (hf : IsFlag f)
    (h : has s f = false) : s &&& ~~~f = s := by
  obtain ⟨i, hi, rfl, hbit⟩ := hf.has_eq_bit
  rw [hbit] at h
  apply BitVec.eq_of_getLsbD_eq
  intro j hj
  rw [BitVec.getLsbD_and, BitVec.getLsbD_not, BitVec.getLsbD_twoPow]
  by_cases hij : i = j
  · subst hij
    simp [h]
  · simp [hij, hj]

/-- Setting a flag leaves the base alone. -/
theorem base_or_flag (s : SystemState) {f : SystemState} (hf : IsFlag f) :
    base (s ||| f) = base s := by
  have h0 : f &&& clearLaserFiringArmedCalibMask = 0#32 := by
    cases hf <;> decide
  rw [base, base, BitVec.and_or_distrib_right, h0, BitVec.or_zero]

/-- Clearing a flag leaves the base alone. -/
theorem base_clear_flag (s : SystemState) {f : SystemState} (hf : IsFlag f) :
    base (s &&& ~~~f) = base s := by
  have h0 : ~~~f &&& clearLaserFiringArmedCalibMask
      = clearLaserFiringArmedCalibMask := by
    cases hf <;> decide
  rw [base, base, BitVec.and_assoc, h0]

@[simp] theorem base_safe : base safe = safe := by decide
@[simp] theorem base_prearmed : base prearmed = prearmed := by decide
@[simp] theorem base_engageAuto : base engageAuto = engageAuto := by decide
@[simp] theorem base_armedManual : base armedManual = armedManual := by decide

/-- The base states carry no flag. -/
theorem has_base_state {f : SystemState} (hf : IsFlag f) :
    has safe f = false ∧ has prearmed f = false
      ∧ has engageAuto f = false ∧ has armedManual f = false := by
  cases hf <;> decide

end SystemState

/-! ## Message types -/

def mtCommands : BitVec 32 := 1
def mtTargetSequence : BitVec 32 := 2
def mtImage : BitVec 32 := 3
def mtText : BitVec 32 := 4
def mtPrearm : BitVec 32 := 5
def mtState : BitVec 32 := 6
def mtStateChangeReq : BitVec 32 := 7
def mtCalibCommands : BitVec 32 := 8
def mtLoginReq : BitVec 32 := 9
def mtLoginRes : BitVec 32 := 10
def mtCamStateChangeReq : BitVec 32 := 11
def mtCamState : BitVec 32 := 12
def mtHeartbeat : BitVec 32 := 13

/-! ## Words in network order -/

/-- The four bytes of a word in network order. -/
def htonl (x : BitVec 32) : Bytes :=
  [.ofBitVec (x.extractLsb' 24 8), .ofBitVec (x.extractLsb' 16 8),
    .ofBitVec (x.extractLsb' 8 8), .ofBitVec (x.extractLsb' 0 8)]

/-- The word whose four bytes in network order start `bs`. -/
def ntohl : Bytes → BitVec 32
  | a :: b :: c :: d :: _ =>
      a.toBitVec ++ (b.toBitVec ++ (c.toBitVec ++ d.toBitVec))
  | _ => 0

@[simp] theorem htonl_length (x : BitVec 32) : (htonl x).length = 4 := rfl

/-- Only the first four bytes are read. -/
theorem ntohl_take (bs : Bytes) : ntohl (bs.take 4) = ntohl bs := by
  rcases bs with _ | ⟨a, _ | ⟨b, _ | ⟨c, _ | ⟨d, rest⟩⟩⟩⟩ <;> rfl

/-- Reading back a word that was put in network order. -/
@[simp] theorem ntohl_htonl (x : BitVec 32) (rest : Bytes) :
    ntohl (htonl x ++ rest) = x := by
  change x.extractLsb' 24 8 ++ (x.extractLsb' 16 8
    ++ (x.extractLsb' 8 8 ++ x.extractLsb' 0 8)) = x
  rw [BitVec.extractLsb'_append_extractLsb'_eq_extractLsb' (by rfl),
    BitVec.extractLsb'_append_extractLsb'_eq_extractLsb' (by rfl),
    BitVec.extractLsb'_append_extractLsb'_eq_extractLsb' (by rfl)]
  exact BitVec.extractLsb'_eq_self

/-! ## Words in host order -/

/-- The four bytes of a word in the memory of the server, whose machine is
    little-endian. -/
def hostBytes (x : BitVec 32) : Bytes := (htonl x).reverse

/-- The word whose four bytes in the memory of the server start `bs`. -/
def hostWord (bs : Bytes) : BitVec 32 := ntohl (bs.take 4).reverse

@[simp] theorem hostBytes_length (x : BitVec 32) : (hostBytes x).length = 4 := rfl

/-- Reading back a word of the server's own. -/
@[simp] theorem hostWord_hostBytes (x : BitVec 32) (rest : Bytes) :
    hostWord (hostBytes x ++ rest) = x := by
  rw [hostWord, List.take_left' (hostBytes_length x), hostBytes, List.reverse_reverse,
    ← List.append_nil (htonl x)]
  exact ntohl_htonl x []

end DemoCannon
