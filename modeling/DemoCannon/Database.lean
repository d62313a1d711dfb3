import DemoCannon.System
import Mathlib.Data.List.Forall2

/-! # The tool for the user table

    `Database/main.cpp` reads commands from standard input and gives them to sqlite.
    It takes the line with the letter of a command from `fgets`, and what the command
    is about from `getline`; the same variables are read into all the time.

    `fgets` has room for eight characters and the end of the line.  A session that
    keeps to that is carried out as it was typed (`carriedOut_of_typed`). -/

namespace DemoCannon

def newline : UInt8 := 0x0A

/-! ## Standard input -/

/-- What is still to come of standard input, and `cin.good()`. -/
structure Stdin where
  bytes : Bytes
  good : Bool := true

/-- The beginning of some bytes up to the first end of a line, and with it. -/
def throughNewline : Bytes → Bytes
  | [] => []
  | b :: bs => if b = newline then [b] else b :: throughNewline bs

/-- `fgets` into an array of `size` characters; `none` for `NULL`. -/
def Stdin.fgets (size : Nat) (s : Stdin) : Option (Bytes × Stdin) :=
  if s.bytes = [] then none
  else
    let line := throughNewline (s.bytes.take (size - 1))
    some (line, { s with bytes := s.bytes.drop line.length })

/-- `getline(cin, str)`; a stream that has met its end leaves `str` alone. -/
def Stdin.getline (str : Bytes) (s : Stdin) : Bytes × Stdin :=
  if s.good then
    (s.bytes.takeWhile (· ≠ newline),
      { bytes := (s.bytes.dropWhile (· ≠ newline)).drop 1
        good := decide (newline ∈ s.bytes) })
  else (str, s)

/-! ## The commands -/

/-- The branches of the loop of `main`, with what they have read. -/
inductive Command where
  | quit
  | insert (username password : Bytes)
  | insertAt (username password createdAt : Bytes)
  | createTable
  | update (username password : Bytes)
  | select
  | delete (username : Bytes)
  | other
  deriving DecidableEq, Repr

/-- The strings that `main` reads into. -/
structure Inputs where
  username : Bytes := []
  password : Bytes := []
  createdAt : Bytes := []

/-- `sizeof(input)`. -/
def sizeofInput : Nat := 10

/-- What the branch of a letter reads. -/
def readInputs (letter : UInt8) (v : Inputs) (s : Stdin) : Command × Inputs × Stdin :=
  if letter = 'q'.toUInt8 then (.quit, v, s)
  else if letter = 'i'.toUInt8 then
    let (username, s) := s.getline v.username
    let (password, s) := s.getline v.password
    (.insert username password, { v with username, password }, s)
  else if letter = 'c'.toUInt8 then
    let (username, s) := s.getline v.username
    let (password, s) := s.getline v.password
    let (createdAt, s) := s.getline v.createdAt
    (.insertAt username password createdAt, { username, password, createdAt }, s)
  else if letter = 't'.toUInt8 then (.createTable, v, s)
  else if letter = 'p'.toUInt8 then
    let (username, s) := s.getline v.username
    let (password, s) := s.getline v.password
    (.update username password, { v with username, password }, s)
  else if letter = 's'.toUInt8 then (.select, v, s)
  else if letter = 'd'.toUInt8 then
    let (username, s) := s.getline v.username
    (.delete username, { v with username }, s)
  else (.other, v, s)

/-- The reading of an iteration; `none` where `fgets` meets the end. -/
def readCommand (v : Inputs) (s : Stdin) : Option (Command × Inputs × Stdin) :=
  (s.fgets sizeofInput).map fun (input, s) => readInputs (input.headD 0) v s

/-! ## The statements -/

/-- The table `user`, once it has been created. -/
abbrev UserTable := Option (List UserRow)

/-- What `query` binds to a parameter: `stmp = param` ends at the first NUL. -/
def bound (param : Bytes) : Bytes := param.takeWhile (· ≠ 0)

/-- `INSERT INTO user(username, password, created_at) VALUES(?, ?, ?)`; `is_admin` is
    `FALSE` by default, and `created_at` is `CURRENT_TIMESTAMP`. -/
def insertUser (user : List UserRow) (username password createdAt : Bytes) : List UserRow :=
  user ++ [{ username, password, createdAt := some createdAt, isAdmin := some [0x30] }]

/-- `delete from user where username = ?`. -/
def deleteUser (user : List UserRow) (username : Bytes) : List UserRow :=
  user.filter fun row => row.username ≠ username

/-- The statement of a command; `none` where `at(0)` throws on an empty string.
    `stored` is what a column of type `TIMESTAMP` keeps of a text: another text only for
    one that is a number.  Without the table no statement can be prepared but the one
    that creates it. -/
def Command.exec (P : Platform) (stored : Bytes → Bytes) (now : Int) (user : UserTable) :
    Command → Option UserTable
  | .quit | .select | .other => some user
  | .createTable => some (some (user.getD []))
  | .insert username password =>
      let hashedPassword := P.getSaltHashPassword username password
      if username = [] then none
      else
        some (user.map (insertUser · (bound username) hashedPassword (P.currentTimestamp now)))
  | .insertAt username password createdAt =>
      let hashedPassword := P.getSaltHashPassword username password
      if username = [] ∨ createdAt = [] then none
      else
        some (user.map
          (insertUser · (bound username) hashedPassword (stored (bound createdAt))))
  | .update username password =>
      let hashedPassword := P.getSaltHashPassword username password
      if username = [] then none
      else
        some (user.map
          (updateUser · hashedPassword (bound username) (P.currentTimestamp now)))
  | .delete username =>
      if username = [] then none else some (user.map (deleteUser · (bound username)))

/-! ## The loop -/

section Loop

variable (P : Platform) (stored : Bytes → Bytes) (clock : Nat → Int)

/-- The loop of `main` from its iteration `k` on, for at most so many iterations: the
    table at the end, and whether the database is closed, which an exception prevents. -/
def mainLoop : Nat → Nat → Inputs → Stdin → UserTable → UserTable × Bool
  | 0, _, _, _, user => (user, true)
  | fuel + 1, k, v, s, user =>
      match readCommand v s with
      | none => (user, true)
      | some (c, v, s) =>
          if c = .quit then (user, true)
          else
            match c.exec P stored (clock k) user with
            | none => (user, false)
            | some user => mainLoop fuel (k + 1) v s user

/-- `main`; an iteration for every byte of standard input is enough. -/
def databaseMain (stdin : Bytes) (user : UserTable) : UserTable × Bool :=
  mainLoop P stored clock (stdin.length + 1) 0 {} { bytes := stdin } user

/-- What some commands do from the command `k` on. -/
def carryOut : Nat → List Command → UserTable → UserTable × Bool
  | _, [], user => (user, true)
  | k, c :: cs, user =>
      match c.exec P stored (clock k) user with
      | none => (user, false)
      | some user => carryOut (k + 1) cs user

end Loop

section Fuel

variable {P : Platform} {stored : Bytes → Bytes} {clock : Nat → Int} {v : Inputs} {s : Stdin}

theorem length_getline (str : Bytes) (s : Stdin) :
    (s.getline str).2.bytes.length ≤ s.bytes.length := by
  rw [Stdin.getline]
  split
  · exact Nat.le_trans (List.drop_sublist ..).length_le (List.dropWhile_sublist _).length_le
  · exact Nat.le_refl _

theorem length_readInputs (letter : UInt8) (v : Inputs) (s : Stdin) :
    (readInputs letter v s).2.2.bytes.length ≤ s.bytes.length := by
  have hone := length_getline v.username s
  have htwo := Nat.le_trans (length_getline v.password (s.getline v.username).2) hone
  have hthree := Nat.le_trans (length_getline v.createdAt
    ((s.getline v.username).2.getline v.password).2) htwo
  rw [readInputs]
  split
  · exact Nat.le_refl _
  split
  · exact htwo
  split
  · exact hthree
  split
  · exact Nat.le_refl _
  split
  · exact htwo
  split
  · exact Nat.le_refl _
  split
  · exact hone
  · exact Nat.le_refl _

/-- Every iteration takes a byte of standard input. -/
theorem length_readCommand {c : Command} {v' : Inputs} {s' : Stdin}
    (h : readCommand v s = some (c, v', s')) : s'.bytes.length < s.bytes.length := by
  obtain ⟨⟨input, rest⟩, hline, hread⟩ := Option.map_eq_some_iff.mp h
  obtain ⟨hne, hrest⟩ := Option.ite_none_left_eq_some.mp hline
  obtain ⟨rfl, rfl⟩ := Prod.mk.inj (Option.some.inj hrest)
  have hinputs := length_readInputs ((throughNewline (s.bytes.take (sizeofInput - 1))).headD 0) v
    { s with bytes := s.bytes.drop (throughNewline (s.bytes.take (sizeofInput - 1))).length }
  replace hread : readInputs _ v _ = (c, v', s') := hread
  rw [hread] at hinputs
  refine Nat.lt_of_le_of_lt hinputs ?_
  rw [List.length_drop]
  obtain ⟨b, bs, hb⟩ := List.exists_cons_of_ne_nil hne
  have hpos : 0 < (throughNewline (s.bytes.take (sizeofInput - 1))).length := by
    rw [hb, sizeofInput, List.take_succ_cons, throughNewline]
    split <;> exact Nat.succ_pos _
  have hlen := List.length_pos_iff.mpr hne
  omega

/-- There is an iteration for every byte, and more make no difference. -/
theorem mainLoop_fuel {fuel more k : Nat} {user : UserTable} (hfuel : s.bytes.length < fuel) :
    mainLoop P stored clock (fuel + more) k v s user = mainLoop P stored clock fuel k v s user := by
  induction fuel generalizing k v s user with
  | zero => exact absurd hfuel (Nat.not_lt_zero _)
  | succ fuel ih =>
      rw [Nat.succ_add, mainLoop, mainLoop]
      cases hread : readCommand v s with
      | none => rfl
      | some read =>
          obtain ⟨c, v', s'⟩ := read
          dsimp only
          split
          · rfl
          cases c.exec P stored (clock k) user with
          | none => rfl
          | some user =>
              have hless := length_readCommand hread
              exact ih (by omega)

end Fuel

/-! ## What is typed -/

/-- The rest of the line behind the letter of a command. -/
def ShortTail (tail : Bytes) : Prop := tail.length ≤ 7 ∧ newline ∉ tail

/-- A text and the end of its line. -/
def asLine (text : Bytes) : Bytes := text ++ [newline]

/-- The letters that mean something. -/
def commandLetters : List UInt8 :=
  ['q'.toUInt8, 'i'.toUInt8, 'c'.toUInt8, 't'.toUInt8, 'p'.toUInt8, 's'.toUInt8, 'd'.toUInt8]

/-- The bytes are a command as it is to be typed: a line of up to eight characters, and a
    line for each text. -/
inductive Typed : Command → Bytes → Prop
  | quit {tail} : ShortTail tail → Typed .quit (asLine ('q'.toUInt8 :: tail))
  | insert {tail username password} : ShortTail tail → newline ∉ username →
      newline ∉ password → Typed (.insert username password)
        (asLine ('i'.toUInt8 :: tail) ++ asLine username ++ asLine password)
  | insertAt {tail username password createdAt} : ShortTail tail → newline ∉ username →
      newline ∉ password → newline ∉ createdAt → Typed (.insertAt username password createdAt)
        (asLine ('c'.toUInt8 :: tail) ++ asLine username ++ asLine password ++ asLine createdAt)
  | createTable {tail} : ShortTail tail → Typed .createTable (asLine ('t'.toUInt8 :: tail))
  | update {tail username password} : ShortTail tail → newline ∉ username →
      newline ∉ password → Typed (.update username password)
        (asLine ('p'.toUInt8 :: tail) ++ asLine username ++ asLine password)
  | select {tail} : ShortTail tail → Typed .select (asLine ('s'.toUInt8 :: tail))
  | delete {tail username} : ShortTail tail → newline ∉ username →
      Typed (.delete username) (asLine ('d'.toUInt8 :: tail) ++ asLine username)
  | nothing : Typed .other (asLine [])
  | other {letter tail} : letter ∉ newline :: commandLetters → ShortTail tail →
      Typed .other (asLine (letter :: tail))

/-! ## What is read of it -/

section Reading

variable {line text rest : Bytes} {good : Bool} {v : Inputs}

theorem throughNewline_asLine (hline : newline ∉ line) (rest : Bytes) :
    throughNewline (asLine line ++ rest) = asLine line := by
  induction line with
  | nil => rw [asLine, List.nil_append, List.singleton_append, throughNewline, if_pos rfl]
  | cons b line ih =>
      obtain ⟨hb, hline⟩ := not_or.mp (mt List.mem_cons.mpr hline)
      rw [asLine, List.cons_append, List.cons_append, throughNewline, if_neg (Ne.symm hb)]
      exact congrArg (b :: ·) (ih hline)

theorem fgets_asLine (hlen : line.length ≤ 8) (hline : newline ∉ line) :
    Stdin.fgets sizeofInput ⟨asLine line ++ rest, good⟩ = some (asLine line, ⟨rest, good⟩) := by
  have hne : asLine line ++ rest ≠ [] := by simp [asLine]
  have hshort : (asLine line).length ≤ sizeofInput - 1 := by
    rw [asLine, List.length_append]
    exact Nat.add_le_add_right hlen 1
  have htake : (asLine line ++ rest).take (sizeofInput - 1)
      = asLine line ++ rest.take (sizeofInput - 1 - (asLine line).length) := by
    rw [List.take_append, List.take_of_length_le hshort]
  rw [Stdin.fgets, if_neg hne]
  dsimp only
  rw [htake, throughNewline_asLine hline, List.drop_left]

theorem getline_asLine (htext : newline ∉ text) (str : Bytes) :
    Stdin.getline str ⟨asLine text ++ rest, true⟩ = (text, ⟨rest, true⟩) := by
  have hall : ∀ b ∈ text, decide (b ≠ newline) = true := fun b hb =>
    decide_eq_true fun h => htext (h ▸ hb)
  have hstop : decide (newline ≠ newline) = false := by decide
  have hin : newline ∈ asLine text ++ rest := by simp [asLine]
  rw [Stdin.getline, if_pos rfl, decide_eq_true hin]
  dsimp only
  rw [asLine, List.append_assoc, List.singleton_append, List.takeWhile_append_of_pos hall,
    List.dropWhile_append_of_pos hall, List.takeWhile_cons, List.dropWhile_cons, hstop]
  simp

theorem readCommand_asLine {letter : UInt8} {tail : Bytes} (hletter : letter ≠ newline)
    (htail : ShortTail tail) : readCommand v ⟨asLine (letter :: tail) ++ rest, true⟩
      = some (readInputs letter v ⟨rest, true⟩) := by
  have hline : newline ∉ letter :: tail := fun h =>
    (List.mem_cons.mp h).elim (fun h => hletter h.symm) htail.2
  have hlen : (letter :: tail).length ≤ 8 := Nat.succ_le_succ htail.1
  rw [readCommand, fgets_asLine hlen hline]
  rfl

/-- **A command that is typed is read**, and nothing else with it. -/
theorem readCommand_typed {c : Command} {bytes : Bytes} (h : Typed c bytes) :
    ∃ v', readCommand v ⟨bytes ++ rest, true⟩ = some (c, v', ⟨rest, true⟩) := by
  cases h with
  | quit htail | createTable htail | select htail =>
      rw [readCommand_asLine (by decide) htail]
      exact ⟨v, rfl⟩
  | insert htail husername hpassword =>
      rw [List.append_assoc, List.append_assoc, readCommand_asLine (by decide) htail,
        readInputs, if_neg (by decide), if_pos rfl, getline_asLine husername]
      dsimp only
      rw [getline_asLine hpassword]
      exact ⟨_, rfl⟩
  | insertAt htail husername hpassword hcreatedAt =>
      rw [List.append_assoc, List.append_assoc, List.append_assoc,
        readCommand_asLine (by decide) htail, readInputs, if_neg (by decide),
        if_neg (by decide), if_pos rfl, getline_asLine husername]
      dsimp only
      rw [getline_asLine hpassword]
      dsimp only
      rw [getline_asLine hcreatedAt]
      exact ⟨_, rfl⟩
  | update htail husername hpassword =>
      rw [List.append_assoc, List.append_assoc, readCommand_asLine (by decide) htail,
        readInputs, if_neg (by decide), if_neg (by decide), if_neg (by decide),
        if_neg (by decide), if_pos rfl, getline_asLine husername]
      dsimp only
      rw [getline_asLine hpassword]
      exact ⟨_, rfl⟩
  | delete htail husername =>
      rw [List.append_assoc, readCommand_asLine (by decide) htail, readInputs,
        if_neg (by decide), if_neg (by decide), if_neg (by decide), if_neg (by decide),
        if_neg (by decide), if_neg (by decide), if_pos rfl, getline_asLine husername]
      exact ⟨_, rfl⟩
  | nothing =>
      rw [readCommand, fgets_asLine (by decide) (by decide)]
      exact ⟨v, rfl⟩
  | @other letter tail hletter htail =>
      simp only [commandLetters, List.mem_cons, List.not_mem_nil, or_false, not_or] at hletter
      obtain ⟨hnewline, hq, hi, hc, ht, hp, hs, hd⟩ := hletter
      rw [readCommand_asLine hnewline htail, readInputs, if_neg hq, if_neg hi, if_neg hc,
        if_neg ht, if_neg hp, if_neg hs, if_neg hd]
      exact ⟨v, rfl⟩

theorem Typed.ne_nil {c : Command} {bytes : Bytes} (h : Typed c bytes) : bytes ≠ [] := by
  cases h <;> simp [asLine]

end Reading

/-! ## What is carried out -/

section CarryOut

variable {P : Platform} {stored : Bytes → Bytes} {clock : Nat → Int} {cs : List Command}
  {inputs : List Bytes} {ending : Bytes}

/-- Standard input ends, or goes on with a command to quit. -/
def QuitsOrEnds (ending : Bytes) : Prop :=
  ending = [] ∨ ∃ bytes more, Typed .quit bytes ∧ ending = bytes ++ more

theorem mainLoop_ending (hending : QuitsOrEnds ending) {fuel k : Nat} {v : Inputs}
    {user : UserTable} :
    mainLoop P stored clock fuel k v ⟨ending, true⟩ user = (user, true) := by
  cases fuel with
  | zero => rfl
  | succ fuel =>
      rw [mainLoop]
      rcases hending with rfl | ⟨bytes, more, hquit, rfl⟩
      · rfl
      · obtain ⟨v', hread⟩ : ∃ v', readCommand v ⟨bytes ++ more, true⟩
            = some (.quit, v', ⟨more, true⟩) := readCommand_typed hquit
        rw [hread]
        rfl

theorem mainLoop_typed (htyped : List.Forall₂ Typed cs inputs) (hquit : .quit ∉ cs)
    (hending : QuitsOrEnds ending) {fuel k : Nat} {v : Inputs} {user : UserTable}
    (hfuel : (inputs.flatten ++ ending).length < fuel) :
    mainLoop P stored clock fuel k v ⟨inputs.flatten ++ ending, true⟩ user
      = carryOut P stored clock k cs user := by
  induction htyped generalizing fuel k v user with
  | nil => exact mainLoop_ending hending
  | @cons c bytes cs inputs hc hcs ih =>
      obtain ⟨hne, hquit⟩ := not_or.mp (mt List.mem_cons.mpr hquit)
      obtain ⟨v', hread⟩ : ∃ v', readCommand v ⟨bytes ++ (inputs.flatten ++ ending), true⟩
          = some (c, v', ⟨inputs.flatten ++ ending, true⟩) := readCommand_typed hc
      rw [List.flatten_cons, List.append_assoc] at hfuel ⊢
      cases fuel with
      | zero => exact absurd hfuel (Nat.not_lt_zero _)
      | succ fuel =>
          rw [mainLoop, hread]
          dsimp only
          rw [if_neg (Ne.symm hne), carryOut]
          cases c.exec P stored (clock k) user with
          | none => rfl
          | some user =>
              have hpos := List.length_pos_iff.mpr hc.ne_nil
              rw [List.length_append] at hfuel
              exact ih hquit (by omega)

/-- **A session is carried out as it was typed**: the commands in order, each with its own
    texts, up to the end of standard input or the first `q`. -/
theorem carriedOut_of_typed (htyped : List.Forall₂ Typed cs inputs) (hquit : .quit ∉ cs)
    (hending : QuitsOrEnds ending) (user : UserTable) :
    databaseMain P stored clock (inputs.flatten ++ ending) user
      = carryOut P stored clock 0 cs user :=
  mainLoop_typed htyped hquit hending (Nat.lt_succ_self _)

end CarryOut

/-- `op` is entered, with a line for nothing behind it. -/
theorem carriedOut_of_typed_op :
    databaseMain Session.platform id (fun _ => Session.newYearTime)
        ([asLine ['t'.toUInt8],
          asLine ('i'.toUInt8 :: "nsert".toUTF8.data.toList) ++ asLine [0x6f, 0x70]
            ++ asLine Session.password.text,
          asLine []].flatten ++ asLine ['q'.toUInt8]) none
      = carryOut Session.platform id (fun _ => Session.newYearTime) 0
        [.createTable, .insert [0x6f, 0x70] Session.password.text, .other] none := by
  have hshort : ShortTail [] := ⟨by decide, by decide⟩
  have hinsert : ShortTail "nsert".toUTF8.data.toList := ⟨by decide +kernel, by decide +kernel⟩
  refine carriedOut_of_typed (.cons (.createTable hshort) (.cons (.insert hinsert ?_ ?_)
    (.cons .nothing .nil))) (by decide) (Or.inr ⟨_, [], .quit hshort, ?_⟩) none
  · decide
  · decide
  · rw [List.append_nil]

/-- Nine characters are too many: the name is what is left of their line. -/
example : databaseMain Session.platform id (fun _ => Session.newYearTime)
    (asLine "insert op".toUTF8.data.toList ++ asLine Session.password.text) (some [])
      = (some [], false) := by decide +kernel

end DemoCannon
