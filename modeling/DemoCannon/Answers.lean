import DemoCannon.Lib.Calls
import DemoCannon.Refinement
import DemoCannon.Sending

/-! # What a handler answers

    Under an environment in which every call succeeds (`Serves`), a handler comes
    to its end and has given certain data to its `WriteDataTcp`s, in order
    (`Writes`).  The sends of the device layer are taken apart once; a handler is
    then read statement by statement. -/

namespace DemoCannon

open Interaction Interaction.Program SystemState

/-- Every call succeeds: all bytes of a write go through, and threads are created and
    signalled. -/
def Serves : (c : Call) → c.Answer → Prop
  | .sslWrite data, (script : List SslRet) => Complete data script
  | .pthreadCreate, (created : Int) => created = 0
  | .condSignal, (signalled : Int) => signalled = 0
  | _, _ => True

/-- What a call gives to the connection. -/
def sentBy (e : Answered Call Call.Answer) : Option Bytes :=
  match e.1 with
  | .sslWrite data => some data
  | _ => none

/-- What was given to the connection, one `WriteDataTcp` after the other. -/
def outgoing (calls : List (Answered Call Call.Answer)) : List Bytes := calls.filterMap sentBy

/-- `p` comes to its end with `R`, and has given `out` to the connection. -/
def Writes {α : Type} (p : Prog α) (s : Server) (out : List Bytes) (R : α → Server → Prop) :
    Prop :=
  Delivers Serves p s fun calls a t => outgoing calls = out ∧ R a t

/-! ## The rules -/

section Rules

variable {α β : Type} {s : Server} {out : List Bytes}

theorem Writes.mono {p : Prog α} {R R' : α → Server → Prop} (h : Writes p s out R)
    (hR : ∀ a t, R a t → R' a t) : Writes p s out R' :=
  Delivers.mono h fun _ a t hQ => ⟨hQ.1, hR a t hQ.2⟩

theorem Writes.pure {a : α} {R : α → Server → Prop} (h : R a s) :
    Writes (Pure.pure a) s [] R := ⟨rfl, h⟩

theorem Writes.bind {p : Prog α} {q : α → Prog β} {o : List Bytes} {R : α → Server → Prop}
    {R' : β → Server → Prop} (hp : Writes p s out R)
    (hq : ∀ a t, R a t → Writes (q a) t o R') : Writes (p >>= q) s (out ++ o) R' := by
  rw [Writes, delivers_bind]
  refine Delivers.mono hp ?_
  rintro calls a t ⟨hsent, hR⟩
  refine Delivers.mono (hq a t hR) ?_
  rintro calls' b u ⟨hsent', hR'⟩
  refine ⟨?_, hR'⟩
  rw [outgoing, List.filterMap_append]
  exact congrArg₂ (· ++ ·) hsent hsent'

/-- A statement that gives nothing to the connection. -/
theorem Writes.then {p : Prog α} {q : α → Prog β} {R : α → Server → Prop}
    {R' : β → Server → Prop} (hp : Writes p s [] R)
    (hq : ∀ a t, R a t → Writes (q a) t out R') : Writes (p >>= q) s out R' := hp.bind hq

/-- A statement after which nothing is given to the connection. -/
theorem Writes.last {p : Prog α} {q : α → Prog β} {R : α → Server → Prop}
    {R' : β → Server → Prop} (hp : Writes p s out R)
    (hq : ∀ a t, R a t → Writes (q a) t [] R') : Writes (p >>= q) s out R' := by
  have hboth := hp.bind hq
  rw [List.append_nil] at hboth
  exact hboth

theorem Writes.fetch {q : Server → Prog β} {R : β → Server → Prop}
    (h : Writes (q s) s out R) : Writes (Program.fetch >>= q) s out R := h

theorem Writes.update {f : Server → Server} {q : Unit → Prog β} {R : β → Server → Prop}
    (h : Writes (q ()) (f s) out R) : Writes (Program.update f >>= q) s out R := h

/-- A call without an answer, that is not a write. -/
theorem Writes.lock (m : Mutex) : Writes (lock m) s [] fun _ t => t = s :=
  ⟨⟨(), trivial⟩, fun _ _ => ⟨rfl, rfl⟩⟩

theorem Writes.unlock (m : Mutex) : Writes (unlock m) s [] fun _ t => t = s :=
  ⟨⟨(), trivial⟩, fun _ _ => ⟨rfl, rfl⟩⟩

/-- Under a mutex. -/
theorem Writes.locked {m : Mutex} {q : Unit → Prog β} {R : β → Server → Prop}
    (h : Writes (q ()) s out R) : Writes (DemoCannon.lock m >>= q) s out R := by
  refine (Writes.lock m).then ?_
  rintro ⟨⟩ t rfl
  exact h

theorem Writes.unlocked {m : Mutex} {q : Unit → Prog β} {R : β → Server → Prop}
    (h : Writes (q ()) s out R) : Writes (DemoCannon.unlock m >>= q) s out R := by
  refine (Writes.unlock m).then ?_
  rintro ⟨⟩ t rfl
  exact h

end Rules

/-- A program that comes to its end has given one thing to the connection. -/
theorem Writes.unique {α : Type} {p : Prog α} {s : Server} {out out' : List Bytes}
    {R R' : α → Server → Prop} (h : Writes p s out R) (h' : Writes p s out' R') :
    out = out' := by
  obtain ⟨calls, a, t, ⟨hsent, -⟩, hsent', -⟩ := Delivers.exists_both h h'
  exact hsent.symm.trans hsent'

/-! ## The sends -/

/-- Byte by byte every write can go through. -/
theorem exists_complete (data : Bytes) : ∃ script, Complete data script := by
  have hrest : ∀ missing total, total + missing = data.length →
      DemoCannon.writeDataTcp data.length (List.replicate missing (.bytes 0)) total
        = .returned data.length := by
    intro missing
    induction missing with
    | zero =>
        intro total htotal
        obtain rfl : total = data.length := htotal
        exact if_neg (Nat.lt_irrefl _)
    | succ missing ih =>
        intro total htotal
        rw [List.replicate_succ, DemoCannon.writeDataTcp, if_pos (by omega)]
        dsimp only
        rw [Nat.min_eq_left (by omega)]
        exact ih (total + 1) (by omega)
  exact ⟨_, hrest data.length 0 (Nat.zero_add _)⟩

theorem writes_writeDataTcp (data : Bytes) (s : Server) :
    Writes (Thread.writeDataTcp data) s [data] fun ret t => ret = data.length ∧ t = s := by
  refine ⟨exists_complete data, ?_⟩
  intro script hscript
  have hend : DemoCannon.writeDataTcp data.length script 0 = .returned data.length := hscript
  change Delivers Serves (DemoCannon.writeDataTcp data.length script 0).leave s _
  rw [hend]
  exact ⟨rfl, rfl, rfl⟩

/-- A message of one word under the mutex. -/
theorem writes_sendWord (data : Bytes) (s : Server) :
    Writes (do
      lock .tcp
      let retval ← Thread.writeDataTcp data
      unlock .tcp
      pure retval) s [data] fun _ t => t = s := by
  refine Writes.locked ((writes_writeDataTcp data s).last ?_)
  rintro ret t ⟨-, rfl⟩
  exact Writes.unlocked (Writes.pure rfl)

theorem writes_sendLoginState (state : BitVec 32) (s : Server) :
    Writes (sendLoginState state) s [wordMessage mtLoginRes state] fun _ t => t = s :=
  writes_sendWord _ s

/-- Showing the state changes the display only. -/
theorem writes_oledUpdateStatus (s : Server) :
    Writes oledUpdateStatus s [] fun _ t => ∃ o, t = { s with oled := o } := by
  refine Writes.fetch ?_
  by_cases holed : s.haveOled = true
  · rw [if_pos holed]
    refine Writes.locked (Writes.update ?_)
    refine (Writes.unlock .i2c).mono ?_
    rintro _ t rfl
    exact ⟨_, rfl⟩
  · rw [if_neg holed]
    exact Writes.pure ⟨s.oled, rfl⟩

theorem writes_sendSystemState (state : SystemState) (s : Server) :
    Writes (sendSystemState state) s [wordMessage mtState state]
      fun _ t => ∃ o, t = { s with oled := o } := by
  refine Writes.locked ((writes_oledUpdateStatus s).then ?_)
  rintro _ t hshown
  refine (writes_writeDataTcp _ t).last ?_
  rintro _ u ⟨-, rfl⟩
  exact Writes.unlocked (Writes.pure hshown)

theorem writes_sendCurrentState (s : Server) :
    Writes sendCurrentState s [wordMessage mtState s.systemState]
      fun _ t => ∃ o, t = { s with oled := o } := by
  refine Writes.fetch ((writes_sendSystemState s.systemState s).last ?_)
  intro _ t hshown
  exact Writes.pure hshown

/-- The bytes of a text on the connection: header, and text with its NUL. -/
def textMessage (text : String) : List Bytes :=
  [header (text.toUTF8.size + 1) mtText, text.toUTF8.data.toList ++ [0]]

theorem writes_printfSend (text : String) (s : Server) (htext : 0 < text.toUTF8.size) :
    Writes (printfSend text) s (textMessage text) fun _ t => t = s := by
  have hheader : ((header (text.toUTF8.size + 1) mtText).length : Int) = sizeofHeader := rfl
  have htext' : ((text.toUTF8.data.toList ++ [0]).length : Int) = text.toUTF8.size + 1 := by
    rw [List.length_append, Array.length_toList]
    rfl
  refine Writes.locked ?_
  dsimp only
  rw [if_pos htext]
  refine (writes_writeDataTcp _ s).bind (o := [text.toUTF8.data.toList ++ [0]]) ?_
  rintro ret t ⟨rfl, rfl⟩
  rw [if_neg (not_not_intro hheader)]
  refine (writes_writeDataTcp _ t).last ?_
  rintro ret u ⟨rfl, rfl⟩
  rw [if_neg (not_not_intro htext')]
  exact Writes.unlocked (Writes.pure rfl)

theorem writes_say (text : String) (s : Server) (htext : 0 < text.toUTF8.size) :
    Writes (say text) s (textMessage text) fun _ t => t = s := by
  refine (writes_printfSend text s htext).last ?_
  rintro _ t rfl
  exact Writes.pure rfl

/-! ## Pre-arm -/

/-- `12345678`. -/
def prearmString : Bytes := [0x31, 0x32, 0x33, 0x34, 0x35, 0x36, 0x37, 0x38]

/-- The text of a rejected code. -/
def notMatched : String := "Pre-Arm code is not matched."

/-- The string in `Code`. -/
def codeString (code : Bytes) : Bytes := code.takeWhile (· ≠ 0)

/-- In `SAFE` a code is answered as it should be: the one string with the state, which
    becomes PREARMED, and any other, which changes nothing, with a text. -/
structure PrearmAnswered (code : Bytes) (s : Server) : Prop where
  /-- Whatever the environment answers. -/
  state : Post (processPreArm code) s fun _ t =>
    t.systemState = if codeString code = prearmString then prearmed else safe
  answer : Writes (processPreArm code) s
    (if codeString code = prearmString then [wordMessage mtState prearmed]
      else textMessage notMatched) fun _ _ => True

section PreArm

variable {code : Bytes} {s : Server}

theorem split_codeString (hnul : 0 ∈ code) : ∃ rest, code = codeString code ++ 0 :: rest := by
  induction code with
  | nil => cases hnul
  | cons c code ih =>
      by_cases hc : c = 0
      · subst hc
        exact ⟨code, rfl⟩
      · obtain ⟨rest, hrest⟩ := ih ((List.mem_cons.mp hnul).resolve_left (Ne.symm hc))
        have hstring : codeString (c :: code) = c :: codeString code :=
          List.takeWhile_cons_of_pos (decide_eq_true hc)
        refine ⟨rest, ?_⟩
        rw [hstring, List.cons_append, ← hrest]

/-- The bytes of the string, and its NUL. -/
theorem codeString_eq_iff (hnul : 0 ∈ code) :
    codeString code = prearmString ↔ code.take 9 = Control.prearmCode := by
  constructor
  · intro hstring
    obtain ⟨rest, hcode⟩ := split_codeString hnul
    rw [hcode, hstring]
    rfl
  · intro htake
    rw [← List.take_append_drop 9 code, htake]
    rfl

/-- What is tested first: a string of eight bytes. -/
theorem prearm_length_iff (hnul : 0 ∈ code) :
    (code[decode.length]? = some 0 ∧ strlen code = decode.length)
      ↔ (codeString code).length = decode.length := by
  refine ⟨fun h => h.2, fun hlen => ⟨?_, hlen⟩⟩
  obtain ⟨rest, hcode⟩ := split_codeString hnul
  have hnth : (codeString code ++ 0 :: rest)[(codeString code).length]? = some 0 := by
    rw [List.getElem?_append_right (Nat.le_refl _), Nat.sub_self]
    rfl
  rw [← hcode, hlen] at hnth
  exact hnth

theorem post_processPreArm (hsafe : s.systemState = safe) (hnul : 0 ∈ code) :
    Post (processPreArm code) s fun _ t =>
      t.systemState = if codeString code = prearmString then prearmed else safe := by
  refine (acts_processPreArm code s).mono ?_
  intro _ t ht
  have hstate : t.systemState = (s.control.prearm code).systemState :=
    congrArg Control.systemState ht
  rw [hstate, Control.prearm]
  by_cases hcode : codeString code = prearmString
  · rw [if_pos ⟨hsafe, (codeString_eq_iff hnul).mp hcode⟩, if_pos hcode]
  · rw [if_neg (fun h => hcode ((codeString_eq_iff hnul).mpr h.2)), if_neg hcode]
    exact hsafe

/-- What `ProcessPreArm` sends. -/
theorem writes_processPreArm (hsafe : s.systemState = safe) (hnul : 0 ∈ code) :
    Writes (processPreArm code) s
      (if codeString code = prearmString then [wordMessage mtState prearmed]
        else if (codeString code).length = 8 then []
        else textMessage notMatched) fun _ _ => True := by
  refine Writes.fetch ?_
  rw [if_pos hsafe]
  by_cases hcode : codeString code = prearmString
  · obtain ⟨htest, htext⟩ := (prearm_iff code).mpr ((codeString_eq_iff hnul).mp hcode)
    rw [if_pos htest, if_pos htext, if_pos hcode]
    exact Writes.update ((writes_sendCurrentState _).mono fun _ _ _ => trivial)
  · rw [if_neg hcode]
    by_cases hlen : (codeString code).length = 8
    · have htest := (prearm_length_iff hnul).mpr hlen
      have htext : ¬ (xorDecode code).takeWhile (· ≠ 0) = prearmedText := fun htext =>
        hcode ((codeString_eq_iff hnul).mpr ((prearm_iff code).mp ⟨htest, htext⟩))
      rw [if_pos htest, if_neg htext, if_pos hlen]
      exact Writes.pure trivial
    · rw [if_neg (fun htest => hlen ((prearm_length_iff hnul).mp htest)), if_neg hlen]
      exact (writes_say notMatched s (by decide +kernel)).mono fun _ _ _ => trivial

/-- **A code is answered** if and only if it is the right one or not eight bytes long. -/
theorem prearm_answered_iff (hsafe : s.systemState = safe) (hnul : 0 ∈ code) :
    PrearmAnswered code s
      ↔ codeString code = prearmString ∨ (codeString code).length ≠ 8 := by
  have hwrites := writes_processPreArm hsafe hnul
  by_cases hcode : codeString code = prearmString
  · rw [if_pos hcode] at hwrites
    refine iff_of_true ⟨post_processPreArm hsafe hnul, ?_⟩ (Or.inl hcode)
    rw [if_pos hcode]
    exact hwrites
  · rw [if_neg hcode] at hwrites
    by_cases hlen : (codeString code).length = 8
    · rw [if_pos hlen] at hwrites
      refine iff_of_false ?_ (not_or.mpr ⟨hcode, not_not_intro hlen⟩)
      intro h
      have hanswer := h.answer
      rw [if_neg hcode] at hanswer
      cases hwrites.unique hanswer
    · rw [if_neg hlen] at hwrites
      refine iff_of_true ⟨post_processPreArm hsafe hnul, ?_⟩ (Or.inr hlen)
      rw [if_neg hcode]
      exact hwrites

end PreArm

/-- The string `12345679` is rejected without a word. -/
theorem wrong_code_unanswered :
    ¬ PrearmAnswered [0x31, 0x32, 0x33, 0x34, 0x35, 0x36, 0x37, 0x39, 0] {} := by
  intro h
  have hnul : (0 : UInt8) ∈ [0x31, 0x32, 0x33, 0x34, 0x35, 0x36, 0x37, 0x39, 0] := by decide
  have hwrites := writes_processPreArm (s := {}) rfl hnul
  cases hwrites.unique h.answer

/-- The right code is answered, and one that is too short. -/
theorem prearm_answered_twice :
    PrearmAnswered [0x31, 0x32, 0x33, 0x34, 0x35, 0x36, 0x37, 0x38, 0] {}
      ∧ PrearmAnswered [0x31, 0x32, 0] {} :=
  ⟨(prearm_answered_iff rfl (by decide)).mpr (Or.inl (by decide)),
    (prearm_answered_iff rfl (by decide)).mpr (Or.inr (by decide))⟩

end DemoCannon
