import Tckr.Core.Arguments
import Tckr.Core.Numerals
import Tckr.FeedProbe.ReadLoop

/-!
# The command line of the probe

The flags are read from the left, a later use of a flag over an earlier one, and what they set
is checked when all are read. Every run that passes the checks has a command line.
-/

namespace Tckr.FeedProbe

/-- Malformed or unknown command-line input. -/
structure ProbeArgumentException where
  message : String
  deriving DecidableEq, Repr

/-- Doubles, blanks, and how the current culture reads and writes numbers. -/
structure Platform where
  Double : Type
  /-- 25,000. -/
  defaultTargetEventsPerSecond : Double
  /-- At most zero; a NaN is not. -/
  nonPositive : Double → Bool
  intTryParse : String → Option Int32
  doubleTryParse : String → Option Double
  intToString : Int32 → String
  doubleToString : Double → String
  intTryParse_toString : ∀ n, intTryParse (intToString n) = some n
  doubleTryParse_toString : ∀ x, doubleTryParse (doubleToString x) = some x
  isWhiteSpace : Char → Bool

namespace Platform

variable (p : Platform)

/-- What the command line sets. -/
structure ProbeOptions where
  host : String := "localhost"
  port : Int32 := 9001
  /-- None: until Ctrl+C. -/
  durationSeconds : Int32 := 60
  reportIntervalSeconds : Int32 := 5
  outputPath : Option String := none
  topSymbols : Int32 := 20
  verifyOrder : Bool := false
  stallAfterSeconds : Option Int32 := none
  stallDurationSeconds : Int32 := 5
  targetEventsPerSecond : p.Double := p.defaultTargetEventsPerSecond
  expectDrops : Bool := false

/-- What of it decides a run. -/
def ProbeOptions.run (o : p.ProbeOptions) : FeedProbe.ProbeOptions where
  verifyOrder := o.verifyOrder
  expectDrops := o.expectDrops
  stallAfter := o.stallAfterSeconds.isSome

/-- The flag, and what follows the first equals sign. -/
def splitFlag (arg : String) : String × Option String :=
  if '=' ∈ arg.toList then
    (String.ofList (arg.toList.takeWhile (· ≠ '=')),
      some (String.ofList ((arg.toList.dropWhile (· ≠ '=')).drop 1)))
  else (arg, none)

def parseInt (flag value : String) : Except ProbeArgumentException Int32 :=
  match p.intTryParse value with
  | some parsed => .ok parsed
  | none => .error ⟨"'" ++ flag ++ "' expects an integer; got '" ++ value ++ "'."⟩

def parseDouble (flag value : String) : Except ProbeArgumentException p.Double :=
  match p.doubleTryParse value with
  | some parsed => .ok parsed
  | none => .error ⟨"'" ++ flag ++ "' expects a number; got '" ++ value ++ "'."⟩

/-- The flag is followed by an integer. -/
def integer (flag : String) (set : Int32 → p.ProbeOptions → p.ProbeOptions) :
    Setting p.ProbeOptions ProbeArgumentException :=
  .valued fun value o => (p.parseInt flag value).map (set · o)

def setting (flag : String) : Option (Setting p.ProbeOptions ProbeArgumentException) :=
  match flag with
  | "--host" => some (.valued fun value o => .ok { o with host := value })
  | "--port" => some (p.integer flag fun n o => { o with port := n })
  | "--duration" => some (p.integer flag fun n o => { o with durationSeconds := n })
  | "--report-interval" => some (p.integer flag fun n o => { o with reportIntervalSeconds := n })
  | "--output" => some (.valued fun value o => .ok { o with outputPath := some value })
  | "--top-symbols" => some (p.integer flag fun n o => { o with topSymbols := n })
  | "--verify-order" => some (.switch fun o => { o with verifyOrder := true })
  | "--stall-after" => some (p.integer flag fun n o => { o with stallAfterSeconds := some n })
  | "--stall-duration" => some (p.integer flag fun n o => { o with stallDurationSeconds := n })
  | "--target-rate" => some (.valued fun value o =>
      (p.parseDouble flag value).map fun x => { o with targetEventsPerSecond := x })
  | "--expect-drops" => some (.switch fun o => { o with expectDrops := true })
  | _ => none

def flags : Flags p.ProbeOptions ProbeArgumentException where
  split := splitFlag
  setting := p.setting
  unknown flag := ⟨"Unknown flag '" ++ flag ++ "'. Run with --help to see the supported flags."⟩
  missing flag := ⟨"'" ++ flag ++ "' expects a value."⟩

/-- The first check that fails. -/
def check (o : p.ProbeOptions) : Except ProbeArgumentException p.ProbeOptions :=
  if o.host.toList.all p.isWhiteSpace then .error ⟨"--host must not be empty."⟩
  else if o.port < 1 ∨ 65535 < o.port then
    .error ⟨"--port must be a valid TCP port (1-65535)."⟩
  else if o.durationSeconds < 0 then
    .error ⟨"--duration must be >= 0 (0 means run until Ctrl+C)."⟩
  else if o.reportIntervalSeconds ≤ 0 then .error ⟨"--report-interval must be > 0."⟩
  else if o.topSymbols ≤ 0 then .error ⟨"--top-symbols must be > 0."⟩
  else if o.stallAfterSeconds.any (· < 0) then .error ⟨"--stall-after must be >= 0."⟩
  else if o.stallDurationSeconds ≤ 0 then .error ⟨"--stall-duration must be > 0."⟩
  else if p.nonPositive o.targetEventsPerSecond then .error ⟨"--target-rate must be > 0."⟩
  else .ok o

def parse (args : List String) : Except ProbeArgumentException p.ProbeOptions :=
  p.flags.read args {} >>= p.check

/-! ## What is accepted -/

theorem if_error_eq_ok {α ε : Type} {c : Prop} [Decidable c] {e : ε} {x : Except ε α} {a : α} :
    (if c then .error e else x) = .ok a ↔ ¬c ∧ x = .ok a := by
  by_cases hc : c
  · simp [hc]
  · simp [hc]

/-- The host is named, and every number is one the probe can use. -/
structure Valid (o : p.ProbeOptions) : Prop where
  host : ∃ c ∈ o.host.toList, p.isWhiteSpace c = false
  port : 1 ≤ o.port ∧ o.port ≤ 65535
  duration : 0 ≤ o.durationSeconds
  reportInterval : 0 < o.reportIntervalSeconds
  topSymbols : 0 < o.topSymbols
  stallAfter : ∀ n ∈ o.stallAfterSeconds, 0 ≤ n
  stallDuration : 0 < o.stallDurationSeconds
  targetRate : p.nonPositive o.targetEventsPerSecond = false

variable {p}

theorem not_or_lt_iff {port : Int32} : ¬(port < 1 ∨ 65535 < port) ↔ 1 ≤ port ∧ port ≤ 65535 := by
  rw [not_or, Int32.not_lt, Int32.not_lt]

theorem check_eq_ok_iff {o o' : p.ProbeOptions} : p.check o = .ok o' ↔ p.Valid o ∧ o = o' := by
  have hhost : ¬o.host.toList.all p.isWhiteSpace = true ↔
      ∃ c ∈ o.host.toList, p.isWhiteSpace c = false := by
    simp
  have hstall : ¬o.stallAfterSeconds.any (· < 0) = true ↔ ∀ n ∈ o.stallAfterSeconds, 0 ≤ n := by
    cases o.stallAfterSeconds with
    | none => simp
    | some n => simp [Int32.not_lt]
  simp only [check, if_error_eq_ok, hhost, not_or_lt_iff, hstall, Int32.not_lt, Int32.not_le,
    Bool.not_eq_true, Except.ok.injEq]
  constructor
  · rintro ⟨host, port, duration, reportInterval, topSymbols, stallAfter, stallDuration,
      targetRate, heq⟩
    exact ⟨⟨host, port, duration, reportInterval, topSymbols, stallAfter, stallDuration,
      targetRate⟩, heq⟩
  · rintro ⟨hvalid, heq⟩
    exact ⟨hvalid.host, hvalid.port, hvalid.duration, hvalid.reportInterval, hvalid.topSymbols,
      hvalid.stallAfter, hvalid.stallDuration, hvalid.targetRate, heq⟩

/-- A command line of these options. -/
def arguments (p : Platform) (o : p.ProbeOptions) : List String :=
  ["--host", o.host, "--port", p.intToString o.port,
    "--duration", p.intToString o.durationSeconds,
    "--report-interval", p.intToString o.reportIntervalSeconds,
    "--top-symbols", p.intToString o.topSymbols,
    "--stall-duration", p.intToString o.stallDurationSeconds,
    "--target-rate", p.doubleToString o.targetEventsPerSecond] ++
  (o.outputPath.elim [] fun path => ["--output", path]) ++
  (o.stallAfterSeconds.elim [] fun n => ["--stall-after", p.intToString n]) ++
  (if o.verifyOrder then ["--verify-order"] else []) ++
  if o.expectDrops then ["--expect-drops"] else []

theorem parseInt_toString (flag : String) (n : Int32) :
    p.parseInt flag (p.intToString n) = .ok n := by
  rw [parseInt, p.intTryParse_toString]

theorem parseDouble_toString (flag : String) (x : p.Double) :
    p.parseDouble flag (p.doubleToString x) = .ok x := by
  rw [parseDouble, p.doubleTryParse_toString]

/-- A flag for an integer, with the integer after it. -/
theorem accepts_integer (flag : String) {set : Int32 → p.ProbeOptions → p.ProbeOptions}
    (hsplit : splitFlag flag = (flag, none)) (hsetting : p.setting flag = some (p.integer flag set))
    (n : Int32) (o : p.ProbeOptions) :
    p.flags.Accepts [flag, p.intToString n] o (set n o) := by
  have hflag : p.flags.setting (p.flags.split flag).1 = some (p.integer flag set) := by
    change p.setting (splitFlag flag).1 = _
    rw [hsplit]
    exact hsetting
  refine Flags.accepts_apart hflag (congrArg Prod.snd hsplit) ?_
  rw [parseInt_toString]
  rfl

theorem accepts_output (path : Option String) (o : p.ProbeOptions) (hnone : o.outputPath = none) :
    p.flags.Accepts (path.elim [] fun path => ["--output", path]) o
      { o with outputPath := path } := by
  have hsame : { o with outputPath := none } = o := by rw [← hnone]
  let set (path : Option String) : p.ProbeOptions := { o with outputPath := path }
  refine Flags.accepts_elim path set hsame fun path => ?_
  exact Flags.accepts_apart rfl rfl rfl

theorem accepts_stallAfter (n : Option Int32) (o : p.ProbeOptions)
    (hnone : o.stallAfterSeconds = none) :
    p.flags.Accepts (n.elim [] fun n => ["--stall-after", p.intToString n]) o
      { o with stallAfterSeconds := n } := by
  have hsame : { o with stallAfterSeconds := none } = o := by rw [← hnone]
  let set (n : Option Int32) : p.ProbeOptions := { o with stallAfterSeconds := n }
  refine Flags.accepts_elim n set hsame fun n => ?_
  exact accepts_integer "--stall-after" rfl rfl n o

theorem accepts_verifyOrder (on : Bool) (o : p.ProbeOptions) (hoff : o.verifyOrder = false) :
    p.flags.Accepts (if on then ["--verify-order"] else []) o { o with verifyOrder := on } := by
  have hsame : { o with verifyOrder := false } = o := by rw [← hoff]
  have hsetting : p.flags.setting (p.flags.split "--verify-order").1 =
      some (.switch fun o => { o with verifyOrder := true }) := rfl
  let set (on : Bool) : p.ProbeOptions := { o with verifyOrder := on }
  refine Flags.accepts_if on set hsame ?_
  exact Flags.accepts_switch hsetting

theorem accepts_expectDrops (on : Bool) (o : p.ProbeOptions) (hoff : o.expectDrops = false) :
    p.flags.Accepts (if on then ["--expect-drops"] else []) o { o with expectDrops := on } := by
  have hsame : { o with expectDrops := false } = o := by rw [← hoff]
  have hsetting : p.flags.setting (p.flags.split "--expect-drops").1 =
      some (.switch fun o => { o with expectDrops := true }) := rfl
  let set (on : Bool) : p.ProbeOptions := { o with expectDrops := on }
  refine Flags.accepts_if on set hsame ?_
  exact Flags.accepts_switch hsetting

theorem accepts_targetRate (x : p.Double) (o : p.ProbeOptions) :
    p.flags.Accepts ["--target-rate", p.doubleToString x] o
      { o with targetEventsPerSecond := x } := by
  refine Flags.accepts_apart rfl rfl ?_
  rw [parseDouble_toString]
  rfl

/-- The command line of some options sets them. -/
theorem accepts_arguments (o : p.ProbeOptions) : p.flags.Accepts (p.arguments o) {} o := by
  have hhost : p.flags.Accepts ["--host", o.host] {} { host := o.host } :=
    Flags.accepts_apart rfl rfl rfl
  have hport := hhost.append (accepts_integer "--port" rfl rfl o.port _)
  have hduration := hport.append (accepts_integer "--duration" rfl rfl o.durationSeconds _)
  have hreport := hduration.append
    (accepts_integer "--report-interval" rfl rfl o.reportIntervalSeconds _)
  have htop := hreport.append (accepts_integer "--top-symbols" rfl rfl o.topSymbols _)
  have hstall := htop.append (accepts_integer "--stall-duration" rfl rfl o.stallDurationSeconds _)
  have hrate := hstall.append (accepts_targetRate o.targetEventsPerSecond _)
  have houtput := hrate.append (accepts_output o.outputPath _ rfl)
  have hstallAfter := houtput.append (accepts_stallAfter o.stallAfterSeconds _ rfl)
  have hverify := hstallAfter.append (accepts_verifyOrder o.verifyOrder _ rfl)
  exact hverify.append (accepts_expectDrops o.expectDrops _ rfl)

theorem parse_eq_ok_iff {args : List String} {o : p.ProbeOptions} :
    p.parse args = .ok o ↔ p.flags.Accepts args {} o ∧ p.Valid o := by
  constructor
  · intro hparse
    cases hread : p.flags.read args {} with
    | error e =>
      rw [parse, hread] at hparse
      cases hparse
    | ok o' =>
      rw [parse, hread] at hparse
      obtain ⟨hvalid, rfl⟩ := check_eq_ok_iff.mp hparse
      exact ⟨Flags.read_eq_ok_iff.mp hread, hvalid⟩
  · rintro ⟨haccepts, hvalid⟩
    rw [parse, haccepts.read_eq]
    exact check_eq_ok_iff.mpr ⟨hvalid, rfl⟩

theorem parse_eq_error_iff {args : List String} {e : ProbeArgumentException} :
    p.parse args = .error e ↔ p.flags.Refuses args {} e ∨
      ∃ o, p.flags.Accepts args {} o ∧ p.check o = .error e := by
  constructor
  · intro hparse
    cases hread : p.flags.read args {} with
    | error e' =>
      rw [parse, hread] at hparse
      cases hparse
      exact .inl (Flags.read_eq_error_iff.mp hread)
    | ok o =>
      rw [parse, hread] at hparse
      exact .inr ⟨o, Flags.read_eq_ok_iff.mp hread, hparse⟩
  · rintro (hrefuses | ⟨o, haccepts, hcheck⟩)
    · rw [parse, hrefuses.read_eq]
      rfl
    · rw [parse, haccepts.read_eq]
      exact hcheck

/-! ## What is asked of a run -/

/-- What these uses ask of a run that was asked for something before. -/
def asked (o : FeedProbe.ProbeOptions) (uses : List FlagUse) : FeedProbe.ProbeOptions where
  verifyOrder := o.verifyOrder || uses.any (·.flag == "--verify-order")
  expectDrops := o.expectDrops || uses.any (·.flag == "--expect-drops")
  stallAfter := o.stallAfter || uses.any (·.flag == "--stall-after")

theorem asked_cons (o : FeedProbe.ProbeOptions) (use : FlagUse) (uses : List FlagUse) :
    asked o (use :: uses) = asked (asked o [use]) uses := by
  simp [asked, Bool.or_assoc]

theorem run_of_switch {flag : String} {set : p.ProbeOptions → p.ProbeOptions}
    (hsetting : p.setting flag = some (.switch set)) (value : Option String) (o : p.ProbeOptions) :
    (set o).run = asked o.run [⟨flag, value⟩] := by
  unfold setting at hsetting
  split at hsetting <;> cases hsetting <;> simp [asked, ProbeOptions.run]

theorem run_of_parsed {α : Type} {parsed : Except ProbeArgumentException α}
    {set : α → p.ProbeOptions} {o : p.ProbeOptions} {r : FeedProbe.ProbeOptions}
    (hmap : parsed.map set = .ok o) (hset : ∀ a, (set a).run = r) : o.run = r := by
  cases parsed with
  | error e => cases hmap
  | ok a =>
    cases hmap
    exact hset a

theorem run_of_integer {flag value : String} {set : Int32 → p.ProbeOptions → p.ProbeOptions}
    {assign : String → p.ProbeOptions → Except ProbeArgumentException p.ProbeOptions}
    {o o' : p.ProbeOptions} {r : FeedProbe.ProbeOptions}
    (hsetting : some (p.integer flag set) = some (.valued assign))
    (hassign : assign value o = .ok o') (hset : ∀ n, (set n o).run = r) : o'.run = r := by
  cases hsetting
  exact run_of_parsed hassign hset

theorem run_of_valued {flag value : String} {o o' : p.ProbeOptions}
    {assign : String → p.ProbeOptions → Except ProbeArgumentException p.ProbeOptions}
    (hsetting : p.setting flag = some (.valued assign)) (hassign : assign value o = .ok o') :
    o'.run = asked o.run [⟨flag, some value⟩] := by
  unfold setting at hsetting
  split at hsetting
  case h_1 | h_5 =>
    cases hsetting
    cases hassign
    simp [asked, ProbeOptions.run]
  case h_7 | h_11 | h_12 => cases hsetting
  case h_10 =>
    cases hsetting
    exact run_of_parsed hassign fun x => by simp [asked, ProbeOptions.run]
  all_goals exact run_of_integer hsetting hassign fun n => by simp [asked, ProbeOptions.run]

/-- One use of a flag. -/
theorem run_of_apply {o o' : p.ProbeOptions} {use : FlagUse}
    (happly : p.flags.apply o use = .ok o') : o'.run = asked o.run [use] := by
  obtain ⟨flag, value⟩ := use
  rw [Flags.apply] at happly
  split at happly
  · rename_i set hsetting hvalue
    cases happly
    exact run_of_switch hsetting value o
  · rename_i assign value hsetting hvalue
    cases hvalue
    exact run_of_valued hsetting happly
  · cases happly

theorem run_of_uses {o o' : p.ProbeOptions} {uses : List FlagUse}
    (huses : uses.foldlM p.flags.apply o = .ok o') : o'.run = asked o.run uses := by
  induction uses generalizing o with
  | nil =>
    cases huses
    simp [asked]
  | cons use uses ih =>
    rw [List.foldlM_cons] at huses
    cases happly : p.flags.apply o use with
    | error e =>
      rw [happly] at huses
      cases huses
    | ok o'' =>
      rw [happly] at huses
      rw [asked_cons, ← run_of_apply happly]
      exact ih huses

/-- What the probe runs with are options that can be used and that the arguments spell, the later
use of a flag over the earlier; it refuses to start at the first argument that is not accepted, or
else at the first check that fails; it can be told to run with any options it can use; and a run
does what some use of a flag asks of it. -/
theorem parse_correct (p : Platform) :
    (∀ args o, p.parse args = .ok o ↔ p.flags.Accepts args {} o ∧ p.Valid o) ∧
    (∀ args e, p.parse args = .error e ↔ p.flags.Refuses args {} e ∨
      ∃ o, p.flags.Accepts args {} o ∧ p.check o = .error e) ∧
    (∀ o, p.Valid o → p.parse (p.arguments o) = .ok o) ∧
    ∀ args uses o, p.flags.Spells args uses → p.parse args = .ok o → o.run = asked {} uses := by
  refine ⟨fun _ _ => parse_eq_ok_iff, fun _ _ => parse_eq_error_iff,
    fun o hvalid => parse_eq_ok_iff.mpr ⟨accepts_arguments o, hvalid⟩, ?_⟩
  intro args uses o hspells hparse
  have hread := (parse_eq_ok_iff.mp hparse).1.read_eq
  rw [hspells.read_eq] at hread
  exact run_of_uses hread

/-! ## Whole numbers -/

/-- The number of these digits, where it fits. -/
def signed (negative : Bool) (digits : List Char) : Option Int32 :=
  let n : Int := if negative then -digitsValue digits else digitsValue digits
  if digits ≠ [] ∧ digits.all Char.isDigit ∧ -2 ^ 31 ≤ n ∧ n < 2 ^ 31 then some (.ofInt n)
  else none

/-- Digits after at most a minus sign. -/
def wholeTryParse (text : String) : Option Int32 :=
  if text.toList.head? = some '-' then signed true text.toList.tail else signed false text.toList

def wholeToString (n : Int32) : String :=
  String.ofList ((if n.toInt < 0 then ['-'] else []) ++ Nat.toDigits 10 n.toInt.natAbs)

theorem signed_toDigits (n : Int32) :
    signed (decide (n.toInt < 0)) (Nat.toDigits 10 n.toInt.natAbs) = some n := by
  have hvalue : (if decide (n.toInt < 0) = true
      then -(digitsValue (Nat.toDigits 10 n.toInt.natAbs) : Int)
      else digitsValue (Nat.toDigits 10 n.toInt.natAbs)) = n.toInt := by
    rw [digitsValue_toDigits]
    simp only [decide_eq_true_eq]
    split_ifs <;> omega
  rw [signed, hvalue, if_pos, Int32.ofInt_toInt]
  refine ⟨Nat.toDigits_ne_nil, ?_, n.le_toInt, n.toInt_lt⟩
  exact List.all_eq_true.mpr (digits_toDigits _)

theorem wholeTryParse_toString (n : Int32) : wholeTryParse (wholeToString n) = some n := by
  have hsigned := signed_toDigits n
  rw [wholeTryParse, wholeToString, String.toList_ofList]
  by_cases hnegative : n.toInt < 0
  · simpa [hnegative] using hsigned
  · have hhead : (Nat.toDigits 10 n.toInt.natAbs).head? ≠ some '-' := by
      intro h
      exact absurd (digits_toDigits _ _ (List.mem_of_head? h)) (by decide)
    simpa [hnegative, hhead] using hsigned

/-- Numbers are whole. -/
def whole : Platform where
  Double := Int32
  defaultTargetEventsPerSecond := 25000
  nonPositive x := x ≤ 0
  intTryParse := wholeTryParse
  doubleTryParse := wholeTryParse
  intToString := wholeToString
  doubleToString := wholeToString
  intTryParse_toString := wholeTryParse_toString
  doubleTryParse_toString := wholeTryParse_toString
  isWhiteSpace := Char.isWhitespace

/-- Port 9100, and the order is verified. -/
theorem parse_correct_port :
    whole.parse ["--port=9100", "--verify-order"] = .ok { port := 9100, verifyOrder := true } := by
  have hport : whole.flags.Accepts ["--port=9100"] {} { port := 9100 } :=
    Flags.accepts_inline rfl rfl rfl
  have hverify : whole.flags.setting (whole.flags.split "--verify-order").1 =
      some (.switch fun o => { o with verifyOrder := true }) := rfl
  have hlocalhost : "localhost".toList = 'l' :: "ocalhost".toList := rfl
  refine ((parse_correct whole).1 _ _).mpr ⟨hport.append (Flags.accepts_switch hverify), ?_⟩
  exact {
    host := ⟨'l', hlocalhost ▸ List.mem_cons_self, rfl⟩
    port := by decide
    duration := by decide
    reportInterval := by decide
    topSymbols := by decide
    stallAfter := fun n hn => by cases hn
    stallDuration := by decide
    targetRate := by decide }

end Platform

end Tckr.FeedProbe
