import DemoCannon.Accesses

/-! # The offsets and their file

    The server reads its offsets from `Correct.ini` when it starts, and writes them to it
    when calibration is switched off.  A calibration moves an offset by one, so offsets that
    have six places behind the point never get more, and what is printed is read as it was
    (`offsets_survive`). -/

namespace DemoCannon

open Interaction Interaction.Program SystemState

/-! ## The offsets of the server -/

/-- The offsets have six places. -/
structure Placed (s : Server) : Prop where
  xCorrect : HasSixPlaces s.xCorrect
  yCorrect : HasSixPlaces s.yCorrect

/-- An access that leaves offsets with six places such. -/
def KeepsPlaced (s t : Server) : Prop := Placed s → Placed t

section KeepsPlaced

variable {P : Platform} {s t : Server}

theorem Placed.of_settings (hs : Placed s) (h : t.settings = s.settings) : Placed t := by
  obtain ⟨hx, hy⟩ := hs
  have hx' : t.xCorrect = s.xCorrect := congrArg Settings.xCorrect h
  have hy' : t.yCorrect = s.yCorrect := congrArg Settings.yCorrect h
  exact ⟨hx' ▸ hx, hy' ▸ hy⟩

theorem stateBlocks_placed : StateBlocks fun _ p => Accesses KeepsPlaced p := by
  refine stateBlocks_accesses (fun s t h hs => hs.of_settings h.1) fun s hs => hs.of_settings ?_
  rw [Server.signal]
  split <;> rfl

/-- A write to the sequencer. -/
theorem placed_updateAuto (f : TAutoEngage → TAutoEngage) :
    Accesses KeepsPlaced (updateAuto f) :=
  .update fun _ hs => ⟨hs.xCorrect, hs.yCorrect⟩

theorem placed_processCalibCommands (cmd : UInt8) :
    Accesses KeepsPlaced (processCalibCommands cmd) := by
  have hone : ((1 : Int) : Rat) = 1 := Int.cast_one
  have hminus : ∀ x : Rat, x - 1 = x + (-1 : Int) := fun x => by
    rw [Int.cast_neg, Int.cast_one, sub_eq_add_neg]
  refine stateBlocks_placed.read fun _ => Accesses.ite (.pure _) (Accesses.ite ?_
    (Accesses.ite ?_ (Accesses.ite ?_ (Accesses.ite ?_ (.pure _)))))
  · exact .update fun _ hs => ⟨hone ▸ hs.xCorrect.add_intCast 1, hs.yCorrect⟩
  · exact .update fun _ hs =>
      ⟨(hminus _).symm ▸ hs.xCorrect.add_intCast (-1), hs.yCorrect⟩
  · exact .update fun _ hs =>
      ⟨hs.xCorrect, (hminus _).symm ▸ hs.yCorrect.add_intCast (-1)⟩
  · exact .update fun _ hs => ⟨hs.xCorrect, hone ▸ hs.yCorrect.add_intCast 1⟩

theorem placed_processFiringOrder (firingOrder : Bytes) :
    Accesses KeepsPlaced (processFiringOrder firingOrder) := by
  have hΦ := stateBlocks_placed
  have hauto : ∀ {f : TAutoEngage → TAutoEngage} {q : Unit → Prog Unit},
      Accesses KeepsPlaced (q ()) → Accesses KeepsPlaced (updateAuto f >>= q) :=
    fun hq => hΦ.next (placed_updateAuto _) hq
  refine hauto (Accesses.ite (.pure _) (hΦ.read fun _ => hauto (Accesses.ite (.pure _) ?_)))
  exact Accesses.ite (hauto (placed_updateAuto _)) (hauto (hΦ.say _))

/-- Writing the file leaves the offsets alone. -/
theorem placed_writeOffsets : Accesses KeepsPlaced writeOffsets :=
  (accesses_call _).bind fun (_ : IniWrite) => .update fun _ hs => ⟨hs.xCorrect, hs.yCorrect⟩

theorem placed_dispatch (P : Platform) (m : Received) : Accesses KeepsPlaced (dispatch P m) := by
  have hΦ := stateBlocks_placed
  have hflags : Accesses KeepsPlaced applyFlags := hΦ.applyFlags
    (fun _ => .update fun _ hs => ⟨hs.xCorrect, hs.yCorrect⟩) placed_writeOffsets
  have hcase : ∀ {msg : String} {p : Prog Unit}, Accesses KeepsPlaced p →
      Accesses KeepsPlaced (do auditlog msg; p) := fun hp => hΦ.next (hΦ.auditlog _) hp
  refine Accesses.ite (hcase (hΦ.processLogin P _)) (hΦ.read fun _ => Accesses.ite (.pure _) ?_)
  refine Accesses.ite (hcase (hΦ.processCamStateChangeRequest _)) ?_
  refine Accesses.ite (hcase (hΦ.processCommands _)) ?_
  refine Accesses.ite (hcase (placed_processCalibCommands _)) ?_
  refine Accesses.ite (hcase (placed_processFiringOrder _)) ?_
  refine Accesses.ite (hcase (hΦ.processPreArm _)) ?_
  exact Accesses.ite (hcase (hΦ.processStateChangeRequest hflags _)) (hΦ.auditlog _)

theorem placed_processTargetEngagements (f : Frame) :
    Accesses KeepsPlaced (processTargetEngagements f) := by
  have hΦ := stateBlocks_placed
  have hselect : Accesses KeepsPlaced (do selectTarget; track f true) :=
    hΦ.next (placed_updateAuto _) (hΦ.track f true)
  refine hΦ.read fun s => ?_
  cases s.autoEngage.state with
  | notActive | engagementInProgress | trackingStable => exact .pure _
  | activate => exact hΦ.next (placed_updateAuto _) hselect
  | newTarget => exact hselect
  | lookingForTarget | tracking => exact hΦ.track f false
  | engagementComplete => exact hΦ.nextTarget

theorem placed_act (a : Act) : Accesses KeepsPlaced (a.prog P) := by
  have hgoto : ∀ pc, Accesses KeepsPlaced (goto pc) := fun _ =>
    .update fun _ hs => ⟨hs.xCorrect, hs.yCorrect⟩
  cases a with
  | message m => exact placed_dispatch P m
  | frame f => exact placed_processTargetEngagements f
  | statement => exact stateBlocks_placed.engagementStatement hgoto
  | spuriousWakeup =>
      exact stateBlocks_placed.read fun _ => Accesses.ite (hgoto _) accesses_never

/-- However a step ends. -/
theorem Placed.stops {a : Act} (hs : Placed s) (h : Stops (a.prog P) s t) : Placed t :=
  (placed_act a).stops (fun _ h => h) (fun _ _ _ hsm hmt h => hmt (hsm h)) h hs

/-- The server starts with offsets that have six places if those that it reads have. -/
theorem placed_start {config : Config}
    (hini : ∀ o ∈ config.correctIni.bind readOffsets, HasSixPlaces o.1 ∧ HasSixPlaces o.2) :
    Placed (start config) := by
  cases hread : config.correctIni.bind readOffsets with
  | none =>
      refine ⟨?_, ?_⟩
      · change HasSixPlaces (((config.correctIni.bind readOffsets).map Prod.fst).getD 60)
        rw [hread]
        exact ⟨60000000, by norm_num⟩
      · change HasSixPlaces (((config.correctIni.bind readOffsets).map Prod.snd).getD (-90))
        rw [hread]
        exact ⟨-90000000, by norm_num⟩
  | some o =>
      refine ⟨?_, ?_⟩
      · change HasSixPlaces (((config.correctIni.bind readOffsets).map Prod.fst).getD 60)
        rw [hread]
        exact (hini o hread).1
      · change HasSixPlaces (((config.correctIni.bind readOffsets).map Prod.snd).getD (-90))
        rw [hread]
        exact (hini o hread).2

end KeepsPlaced

/-! ## The server and its file -/

/-- The server with its file, and the offsets that `WriteOffsets` has printed to it last, or
    that were read at the start. -/
structure Station where
  server : Server
  printed : Option (Rat × Rat)

/-- What is done: a step; a step in which the server ends, and it is started again; it is
    stopped and started again. -/
inductive StationAct where
  | server (a : Act)
  | dies (a : Act) (config : Config)
  | restart (config : Config)

/-- The server as it is started with the file. -/
def boot (config : Config) (file : Option Bytes) : Server :=
  start { config with correctIni := file }

namespace Station

/-- With the server in `t` the file is as it was, or the offsets have been printed to it;
    a write that fails on the way does neither. -/
def Leaves (s : Station) (t : Server) (printed : Option (Rat × Rat)) : Prop :=
  (t.correctIni = s.server.correctIni ∧ printed = s.printed)
    ∨ (t.correctIni = some (offsetsText t.xCorrect t.yCorrect)
      ∧ printed = some (t.xCorrect, t.yCorrect))

inductive Step (P : Platform) : Station → StationAct → Station → Prop
  | server {s : Station} {a : Act} {t : Server} {printed : Option (Rat × Rat)} :
      DemoCannon.Step P s.server a t → s.Leaves t printed → Step P s (.server a) ⟨t, printed⟩
  | dies {s : Station} {a : Act} {config : Config} {x : Halt} {t : Server}
      {printed : Option (Rat × Rat)} : Exits (a.prog P) s.server x t → s.Leaves t printed →
      Step P s (.dies a config) ⟨boot config t.correctIni, printed⟩
  | restart {s : Station} {config : Config} :
      Step P s (.restart config) ⟨boot config s.server.correctIni, s.printed⟩

/-- The file is read as what was printed last, or read. -/
def Read (s : Station) : Prop := s.server.correctIni.bind readOffsets = s.printed

/-- The offsets have six places, and so has what was read or printed last. -/
structure Tidy (s : Station) : Prop where
  placed : Placed s.server
  printed : ∀ o ∈ s.printed, HasSixPlaces o.1 ∧ HasSixPlaces o.2

end Station

/-- A run from a file on. -/
abbrev StationRun (P : Platform) (config : Config) (file : Option Bytes) :
    List (Station × StationAct) → Station → Prop :=
  Run (Station.Step P) ⟨boot config file, file.bind readOffsets⟩

section Station

variable {P : Platform} {config : Config} {file : Option Bytes} {s t : Station}
  {a : StationAct}

theorem Station.Leaves.read {u : Server} {printed : Option (Rat × Rat)} (hs : s.Tidy ∧ s.Read)
    (hu : Placed u) (h : s.Leaves u printed) :
    u.correctIni.bind readOffsets = printed
      ∧ ∀ o ∈ printed, HasSixPlaces o.1 ∧ HasSixPlaces o.2 := by
  rcases h with ⟨hini, rfl⟩ | ⟨hini, rfl⟩
  · rw [hini]
    exact ⟨hs.2, hs.1.printed⟩
  · rw [hini, Option.bind_some, readOffsets_of_hasSixPlaces hu.xCorrect hu.yCorrect]
    refine ⟨rfl, fun o ho => ?_⟩
    obtain rfl := Option.some.inj ho
    exact ⟨hu.xCorrect, hu.yCorrect⟩

theorem placed_boot (hfile : ∀ o ∈ file.bind readOffsets, HasSixPlaces o.1 ∧ HasSixPlaces o.2) :
    Placed (boot config file) := placed_start hfile

/-- A step keeps both. -/
theorem Station.Step.read (hst : s.Step P a t) (hs : s.Tidy ∧ s.Read) : t.Tidy ∧ t.Read := by
  cases hst with
  | server hst hleaves =>
      have ht := hs.1.placed.stops (Or.inl ⟨(), hst⟩)
      obtain ⟨hread, hprinted⟩ := hleaves.read hs ht
      exact ⟨⟨ht, hprinted⟩, hread⟩
  | dies hexit hleaves =>
      have hu := hs.1.placed.stops (Or.inr ⟨_, hexit⟩)
      obtain ⟨hread, hprinted⟩ := hleaves.read hs hu
      exact ⟨⟨placed_boot (hread ▸ hprinted), hprinted⟩, hread⟩
  | restart =>
      have hread : s.server.correctIni.bind readOffsets = s.printed := hs.2
      exact ⟨⟨placed_boot (hread ▸ hs.1.printed), hs.1.printed⟩, hread⟩

/-- **The offsets survive.**  In every run, with the server ended and started again wherever
    it may: `Correct.ini` is read as the offsets that were printed last.  So where they are
    those of the server, a server that is started has them too. -/
theorem offsets_survive
    (hfile : ∀ o ∈ file.bind readOffsets, HasSixPlaces o.1 ∧ HasSixPlaces o.2)
    {h : List (Station × StationAct)} (hr : StationRun P config file h s) :
    EveryState (fun s => s.Read ∧ ∀ config,
      s.printed = some (s.server.xCorrect, s.server.yCorrect) →
        (boot config s.server.correctIni).xCorrect = s.server.xCorrect
          ∧ (boot config s.server.correctIni).yCorrect = s.server.yCorrect) h s := by
  refine (hr.invariant (fun s => s.Tidy ∧ s.Read) ⟨⟨placed_boot hfile, hfile⟩, rfl⟩
    fun _ _ _ hs hst => hst.read hs).mono ?_
  rintro s ⟨-, hread⟩
  refine ⟨hread, fun config hwritten => ?_⟩
  have hini : s.server.correctIni.bind readOffsets
      = some (s.server.xCorrect, s.server.yCorrect) := hread.trans hwritten
  constructor
  · change ((s.server.correctIni.bind readOffsets).map Prod.fst).getD 60 = _
    rw [hini]
    rfl
  · change ((s.server.correctIni.bind readOffsets).map Prod.snd).getD (-90) = _
    rw [hini]
    rfl

end Station

/-- A step in which every call succeeds at once. -/
def Station.next (P : Platform) (s : Station) : StationAct → Option Station
  | .server a => (DemoCannon.next P s.server a).bind fun t =>
      if t.correctIni = s.server.correctIni then some ⟨t, s.printed⟩
      else if t.correctIni = some (offsetsText t.xCorrect t.yCorrect) then
        some ⟨t, some (t.xCorrect, t.yCorrect)⟩
      else none
  | .dies _ _ => none
  | .restart config => some ⟨boot config s.server.correctIni, s.printed⟩

theorem Station.step_of_next {P : Platform} (s : Station) (a : StationAct) (t : Station)
    (h : s.next P a = some t) : s.Step P a t := by
  cases a with
  | server a =>
      obtain ⟨u, hu, hfile⟩ := Option.bind_eq_some_iff.mp h
      have hst := DemoCannon.step_of_next hu
      by_cases hini : u.correctIni = s.server.correctIni
      · rw [if_pos hini] at hfile
        obtain rfl := Option.some.inj hfile
        exact .server hst (Or.inl ⟨hini, rfl⟩)
      rw [if_neg hini] at hfile
      by_cases hprinted : u.correctIni = some (offsetsText u.xCorrect u.yCorrect)
      · rw [if_pos hprinted] at hfile
        obtain rfl := Option.some.inj hfile
        exact .server hst (Or.inr ⟨hprinted, rfl⟩)
      · rw [if_neg hprinted] at hfile
        cases hfile
  | dies => cases h
  | restart config =>
      obtain rfl := Option.some.inj h
      exact .restart

namespace Session

/-- `"xCorrect 60.5\nyCorrect -90\n"`. -/
def correctIni : Bytes :=
  xCorrectText ++ [0x20, 0x36, 0x30, 0x2E, 0x35, 0x0A]
    ++ yCorrectText ++ [0x20, 0x2D, 0x39, 0x30, 0x0A]

/-- The operator moves an offset with calibration on and switches it off, and the server is
    started again. -/
def calibrates : List StationAct :=
  [.server (.message login), .server (.message prearm),
    .server (.message (request armedManual)),
    .server (.message (request (armedManual ||| calibOn))),
    .server (.message (calibCommand decX)), .server (.message (request armedManual)),
    .restart config]

end Session

theorem offsets_survive_moved :
    ∃ h s, StationRun Session.platform Session.config (some Session.correctIni) h s
      ∧ s.server.xCorrect = 123 / 2
      ∧ EveryState (fun s => s.Read ∧ ∀ config,
        s.printed = some (s.server.xCorrect, s.server.yCorrect) →
          (boot config s.server.correctIni).xCorrect = s.server.xCorrect
            ∧ (boot config s.server.correctIni).yCorrect = s.server.yCorrect) h s := by
  have hrun : ∃ h s, StationRun Session.platform Session.config (some Session.correctIni) h s
      ∧ decide (s.server.xCorrect = 123 / 2) = true := exists_run_of_follow Station.step_of_next
    Session.calibrates.reverse (fun s => s.server.xCorrect = 123 / 2) (by decide +kernel)
  have hread : readOffsets Session.correctIni = some (121 / 2, -90) := by decide +kernel
  obtain ⟨h, s, hr, hx⟩ := hrun
  refine ⟨h, s, hr, of_decide_eq_true hx, offsets_survive (fun o ho => ?_) hr⟩
  obtain rfl := Option.some.inj (hread.symm.trans ho)
  exact ⟨⟨60500000, by norm_num⟩, ⟨-90000000, by norm_num⟩⟩

end DemoCannon
