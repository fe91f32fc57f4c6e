import SailwindOnline.SessionRuns

/-!
The settings of a process, resolved from its arguments and its surroundings.
From low to high precedence these are the built-in settings, the file that
`--config` names, the environment, and the flags. Reading a file and parsing
TOML are the platform's; arguments are scanned from the left, and the first
fault stops the scan.
-/

namespace SailwindOnline.Settings

inductive Flag where
  | config
  | bind
  | db
deriving DecidableEq, Repr

def Flag.text : Flag → String
  | .config => "--config"
  | .bind => "--bind"
  | .db => "--db"

def flagNamed (arg : String) : Option Flag :=
  if arg = "--config" then some .config
  else if arg = "--bind" then some .bind
  else if arg = "--db" then some .db
  else none

structure Overrides where
  configPath : Option String := none
  bindOverride : Option String := none
  dbOverride : Option String := none
deriving DecidableEq, Repr

inductive ResolveError where
  | missingValue (flag : Flag)
  | unknownArgument (arg : String)
  | reading (path reason : String)
  | parsing (path reason : String)
  | invalid (reason : String)
deriving DecidableEq, Repr

def ResolveError.text : ResolveError → String
  | .missingValue flag => s!"{flag.text} requires a value"
  | .unknownArgument arg => s!"unknown argument: {arg}"
  | .reading path reason => s!"reading config {path}: {reason}"
  | .parsing path reason => s!"parsing config {path}: {reason}"
  | .invalid reason => reason

/-- The settings of `Config`, with where the server binds and where its database lies. -/
structure ServerSettings (F : Type) where
  bind : String
  dbPath : String
  config : Config F

/-- What the arguments are resolved against: the files, the TOML parser and the environment. -/
structure Surroundings (F : Type) where
  readToString : String → Except String String
  fromToml : String → Except String (ServerSettings F)
  swoBind : Option String
  swoDb : Option String

def Overrides.set (overrides : Overrides) (flag : Flag) (value : String) : Overrides :=
  match flag with
  | .config => { overrides with configPath := some value }
  | .bind => { overrides with bindOverride := some value }
  | .db => { overrides with dbOverride := some value }

def Overrides.get (overrides : Overrides) : Flag → Option String
  | .config => overrides.configPath
  | .bind => overrides.bindOverride
  | .db => overrides.dbOverride

/-- A flag takes the next argument for its value, whatever that is. -/
def parseArgs : List String → Overrides → Except ResolveError Overrides
  | [], overrides => .ok overrides
  | arg :: rest, overrides =>
    match flagNamed arg with
    | none => .error (.unknownArgument arg)
    | some flag =>
      match rest with
      | [] => .error (.missingValue flag)
      | value :: rest => parseArgs rest (overrides.set flag value)

section Resolving
variable {F : Type}

def ServerSettings.default (cellSizeM : F) : ServerSettings F :=
  { bind := "0.0.0.0:38455", dbPath := "sailwind.db", config := Config.default cellSizeM }

variable [Platform F]

def ServerSettings.validate (settings : ServerSettings F) : Except ResolveError Unit :=
  settings.config.validate.mapError .invalid

def fromFile (surroundings : Surroundings F) (path : String) : Except ResolveError (ServerSettings F) :=
  match surroundings.readToString path with
  | .error reason => .error (.reading path reason)
  | .ok text =>
    match surroundings.fromToml text with
    | .error reason => .error (.parsing path reason)
    | .ok settings =>
      match settings.validate with
      | .error failure => .error failure
      | .ok () => .ok settings

def withBind (bind : Option String) (settings : ServerSettings F) : ServerSettings F :=
  match bind with
  | some bind => { settings with bind }
  | none => settings

def withDb (db : Option String) (settings : ServerSettings F) : ServerSettings F :=
  match db with
  | some dbPath => { settings with dbPath }
  | none => settings

def resolve (cellSizeM : F) (surroundings : Surroundings F) (args : List String) :
    Except ResolveError (ServerSettings F) :=
  match parseArgs args {} with
  | .error failure => .error failure
  | .ok overrides =>
    let loaded :=
      match overrides.configPath with
      | some path => fromFile surroundings path
      | none => .ok (.default cellSizeM)
    match loaded with
    | .error failure => .error failure
    | .ok settings =>
      let settings := withDb surroundings.swoDb (withBind surroundings.swoBind settings)
      let settings := withDb overrides.dbOverride (withBind overrides.bindOverride settings)
      match settings.validate with
      | .error failure => .error failure
      | .ok () => .ok settings

end Resolving

/-! Arguments. -/

/-- The arguments that give each flag its value, in order. -/
def argsOf (given : List (Flag × String)) : List String := given.flatMap fun entry => [entry.1.text, entry.2]

/-- The last value that is given for a flag. -/
def lastFor (flag : Flag) (given : List (Flag × String)) : Option String :=
  (given.filter fun entry => entry.1 = flag).getLast?.map Prod.snd

@[simp] theorem flagNamed_text (flag : Flag) : flagNamed flag.text = some flag := by
  cases flag <;> decide

theorem text_of_flagNamed {arg : String} {flag : Flag} (named : flagNamed arg = some flag) : arg = flag.text := by
  unfold flagNamed at named
  split at named
  · cases named
    assumption
  · split at named
    · cases named
      assumption
    · split at named
      · cases named
        assumption
      · cases named

@[simp] theorem get_set (overrides : Overrides) (flag other : Flag) (value : String) :
    (overrides.set flag value).get other = if flag = other then some value else overrides.get other := by
  cases flag <;> cases other <;> rfl

def Overrides.setAll (overrides : Overrides) (given : List (Flag × String)) : Overrides :=
  given.foldl (fun overrides entry => overrides.set entry.1 entry.2) overrides

/-- A flag keeps the last value given for it. -/
theorem get_setAll (overrides : Overrides) (given : List (Flag × String)) (flag : Flag) :
    (overrides.setAll given).get flag = (lastFor flag given).or (overrides.get flag) := by
  induction given using List.reverseRecOn with
  | nil => simp [Overrides.setAll, lastFor]
  | append_singleton given entry ih =>
      have step : overrides.setAll (given ++ [entry]) = (overrides.setAll given).set entry.1 entry.2 := by
        simp [Overrides.setAll]
      rw [step, get_set, ih, lastFor, lastFor, List.filter_append]
      by_cases own : entry.1 = flag <;> simp [own]

/-- The flags in front are taken up, and the scan goes on with the rest. -/
theorem parseArgs_argsOf (given : List (Flag × String)) (rest : List String) (overrides : Overrides) :
    parseArgs (argsOf given ++ rest) overrides = parseArgs rest (overrides.setAll given) := by
  induction given generalizing overrides with
  | nil => rfl
  | cons entry given ih =>
      have front : argsOf (entry :: given) ++ rest = entry.1.text :: entry.2 :: (argsOf given ++ rest) := rfl
      rw [front, parseArgs]
      simp only [flagNamed_text]
      exact ih (overrides.set entry.1 entry.2)

/-- Arguments are flags with their values, up to a flag without one or an argument that is no flag. -/
inductive Shape (args : List String) : Prop
  | flags (given : List (Flag × String)) (all : args = argsOf given) : Shape args
  | unvalued (given : List (Flag × String)) (flag : Flag) (all : args = argsOf given ++ [flag.text]) : Shape args
  | unknown (given : List (Flag × String)) (arg : String) (rest : List String) (unnamed : flagNamed arg = none)
      (all : args = argsOf given ++ arg :: rest) : Shape args

theorem args_shape (args : List String) (overrides : Overrides) : Shape args := by
  induction args, overrides using parseArgs.induct with
  | case1 overrides => exact .flags [] rfl
  | case2 arg rest overrides unnamed => exact .unknown [] arg rest unnamed rfl
  | case3 arg overrides flag named => exact .unvalued [] flag (by rw [text_of_flagNamed named]; rfl)
  | case4 arg overrides flag named value rest ih =>
      rw [text_of_flagNamed named]
      cases ih with
      | flags given all => exact .flags ((flag, value) :: given) (by rw [all]; rfl)
      | unvalued given last all => exact .unvalued ((flag, value) :: given) last (by rw [all]; rfl)
      | unknown given arg rest unnamed all =>
          exact .unknown ((flag, value) :: given) arg rest unnamed (by rw [all]; rfl)

/-! The whole resolution. -/
section Outcome
variable {F : Type} [Platform F] {cellSizeM : F} {surroundings : Surroundings F} {given : List (Flag × String)}

/-- The settings below the environment and the flags: the last file named, or what is built in. -/
def base (cellSizeM : F) (surroundings : Surroundings F) (given : List (Flag × String)) :
    Except ResolveError (ServerSettings F) :=
  match lastFor .config given with
  | some path => fromFile surroundings path
  | none => .ok (.default cellSizeM)

/-- The environment above the base, and the flags above both. -/
def overlaid (surroundings : Surroundings F) (given : List (Flag × String)) (settings : ServerSettings F) :
    ServerSettings F :=
  { settings with
    bind := ((lastFor .bind given).or surroundings.swoBind).getD settings.bind
    dbPath := ((lastFor .db given).or surroundings.swoDb).getD settings.dbPath }

omit cellSizeM surroundings given in
theorem validate_ok_iff (settings : ServerSettings F) :
    settings.validate = .ok () ↔ settings.config.validate = .ok () := by
  unfold ServerSettings.validate
  cases settings.config.validate <;> simp [Except.mapError]

theorem fromFile_valid {path : String} {settings : ServerSettings F} (loaded : fromFile surroundings path = .ok settings) :
    settings.config.validate = .ok () := by
  unfold fromFile at loaded
  split at loaded
  · cases loaded
  · split at loaded
    · cases loaded
    · split at loaded
      · cases loaded
      · rename_i passed
        cases loaded
        exact (validate_ok_iff _).mp passed

theorem base_valid {settings : ServerSettings F} (finite : Platform.isFinite cellSizeM = true)
    (sized : Platform.cellSizeInRange cellSizeM = true) (loaded : base cellSizeM surroundings given = .ok settings) :
    settings.config.validate = .ok () := by
  unfold base at loaded
  split at loaded
  · exact fromFile_valid loaded
  · cases loaded
    exact Config.default_valid finite sized

omit [Platform F] in
theorem withBind_withBind (low high : Option String) (settings : ServerSettings F) :
    withBind high (withBind low settings) = { settings with bind := (high.or low).getD settings.bind } := by
  cases low <;> cases high <;> rfl

omit [Platform F] in
theorem withDb_withDb (low high : Option String) (settings : ServerSettings F) :
    withDb high (withDb low settings) = { settings with dbPath := (high.or low).getD settings.dbPath } := by
  cases low <;> cases high <;> rfl

omit [Platform F] in
theorem withBind_withDb (bind db : Option String) (settings : ServerSettings F) :
    withBind bind (withDb db settings) = withDb db (withBind bind settings) := by
  cases bind <;> cases db <;> rfl

/-- Well-formed arguments: nothing above the base can fail, for the base was validated and no override is. -/
theorem resolve_flags (finite : Platform.isFinite cellSizeM = true) (sized : Platform.cellSizeInRange cellSizeM = true)
    (surroundings : Surroundings F) (given : List (Flag × String)) :
    resolve cellSizeM surroundings (argsOf given) =
      (base cellSizeM surroundings given).map (overlaid surroundings given) := by
  have parsed : parseArgs (argsOf given) {} = .ok (({} : Overrides).setAll given) := by
    have scanned := parseArgs_argsOf given [] {}
    rwa [List.append_nil] at scanned
  have config : (({} : Overrides).setAll given).configPath = lastFor .config given := by
    have kept := get_setAll {} given .config
    rwa [Overrides.get, Overrides.get, Option.or_none] at kept
  have bind : (({} : Overrides).setAll given).bindOverride = lastFor .bind given := by
    have kept := get_setAll {} given .bind
    rwa [Overrides.get, Overrides.get, Option.or_none] at kept
  have db : (({} : Overrides).setAll given).dbOverride = lastFor .db given := by
    have kept := get_setAll {} given .db
    rwa [Overrides.get, Overrides.get, Option.or_none] at kept
  have loading : (match lastFor .config given with
      | some path => fromFile surroundings path
      | none => .ok (.default cellSizeM)) = base cellSizeM surroundings given := rfl
  unfold resolve
  simp only [parsed, config, bind, db]
  rw [loading]
  cases loaded : base cellSizeM surroundings given with
  | error failure => rfl
  | ok settings =>
      have laid : withDb (lastFor .db given) (withBind (lastFor .bind given)
          (withDb surroundings.swoDb (withBind surroundings.swoBind settings))) =
          overlaid surroundings given settings := by
        rw [withBind_withDb, withDb_withDb, withBind_withBind]
        rfl
      have sound := base_valid finite sized loaded
      have valid : (overlaid surroundings given settings).validate = .ok () := (validate_ok_iff _).mpr sound
      simp only [laid, valid]
      rfl

/-- Arguments are resolved exactly when each is a flag with its value and the last file named, if any, is read, parsed
and validated. The last `--bind` and `--db` then come before the environment, and that before the file; what is
resolved passes `validate`. Else the first fault from the left is the error. -/
theorem settings_resolved (finite : Platform.isFinite cellSizeM = true) (sized : Platform.cellSizeInRange cellSizeM = true)
    (surroundings : Surroundings F) (args : List String) :
    (∃ given, args = argsOf given ∧ resolve cellSizeM surroundings args =
        (base cellSizeM surroundings given).map (overlaid surroundings given) ∧
      ∀ settings, base cellSizeM surroundings given = .ok settings →
        ∃ cfg : ValidConfig F, cfg.toConfig = (overlaid surroundings given settings).config) ∨
    (∃ given flag, args = argsOf given ++ [flag.text] ∧
      resolve cellSizeM surroundings args = .error (.missingValue flag)) ∨
    ∃ given arg rest, args = argsOf given ++ arg :: rest ∧ flagNamed arg = none ∧
      resolve cellSizeM surroundings args = .error (.unknownArgument arg) := by
  cases args_shape args {} with
  | flags given all =>
      subst all
      refine Or.inl ⟨given, rfl, resolve_flags finite sized surroundings given, ?_⟩
      intro settings loaded
      exact ⟨⟨settings.config, base_valid finite sized loaded⟩, rfl⟩
  | unvalued given flag all =>
      subst all
      refine Or.inr (Or.inl ⟨given, flag, rfl, ?_⟩)
      simp [resolve, parseArgs_argsOf, parseArgs]
  | unknown given arg rest unnamed all =>
      subst all
      refine Or.inr (Or.inr ⟨given, arg, rest, rfl, unnamed, ?_⟩)
      simp [resolve, parseArgs_argsOf, parseArgs, unnamed]

end Outcome

/-! A process with a database in its environment and two more among its arguments. -/
section Overridden

def harbour : Surroundings Int where
  readToString _ := .error "no such file"
  fromToml _ := .error "no such key"
  swoBind := some "10.0.0.1:38455"
  swoDb := some "environment.db"

def twoDatabases : List String := ["--db", "first.db", "--db", "second.db"]

theorem settings_resolved_overridden :
    (resolve 1024 harbour twoDatabases).toOption.map (fun settings => (settings.bind, settings.dbPath)) =
      some ("10.0.0.1:38455", "second.db") ∧
    ∃ given, twoDatabases = argsOf given ∧
      resolve 1024 harbour twoDatabases = (base 1024 harbour given).map (overlaid harbour given) := by
  have shown : (resolve 1024 harbour twoDatabases).toOption.map (fun settings => (settings.bind, settings.dbPath)) =
      some ("10.0.0.1:38455", "second.db") := by decide +kernel
  refine ⟨shown, ?_⟩
  rcases @settings_resolved Int _ 1024 rfl rfl harbour twoDatabases with
    ⟨given, all, resolved, -⟩ | ⟨given, flag, all, failed⟩ | ⟨given, arg, rest, all, unnamed, failed⟩
  · exact ⟨given, all, resolved⟩
  · rw [failed] at shown
    cases shown
  · rw [failed] at shown
    cases shown

end Overridden
end SailwindOnline.Settings
