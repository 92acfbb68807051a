import NeuronFleet.Config.Fleet
import NeuronFleet.Settings.Read

/-
  Loading a configuration from a file and the environment.

  The file is a YAML document of the shape of `FleetConfig.schema`;
  environment variables `AXONFLEET__SECTION__KEY` (in any case)
  override its values, key by key.  The layered settings are then read
  as a configuration and validated.

  A missing file, a file that does not read as settings, and settings
  that do not read as a configuration are configuration errors naming
  the file.  A mapping key in the file that is neither a string nor an
  integer cannot name a setting, and a key whose index reaches before
  the start of its array cannot be set: loading then aborts.

  Main definitions:
    * `Config.environmentHead`, `FleetConfig.loadFound`, `FleetConfig.load`
-/

namespace NeuronFleet

/- The name environment overrides start with, before `__`. -/
def Config.environmentHead : String := "AXONFLEET"

/- Loads the configuration from the text of the file found for `path`
under the name `name`, under the environment `env`, and validates it. -/
def FleetConfig.loadFound
    (path name text : String)
    (env : List (String × String)) :
    Except Halt FleetConfig := do
  let fail (text : String) : Except Halt FleetConfig := throw (.error (.config text))
  match Settings.fileSource name text with
  | .error .unnamedKey => throw .abort
  | .error (.cause c) => fail ("Failed to read config file " ++ path ++ ": " ++ c ++ " in " ++ name)
  | .ok fromFile =>
    match Settings.gather [fromFile, Settings.environmentSource Config.environmentHead env] with
    | none => throw .abort
    | some settings =>
    match Settings.read 16 FleetConfig.schema settings with
    | .error p => fail ("Failed to parse config file " ++ path ++ ": " ++ p.message)
    | .ok j =>
      let c := FleetConfig.ofJson j
      match c.validate with
      | .ok () => pure c
      | .error e => throw (.error e)

/- Loads the configuration file at `path`, given its text (none when
there is no such file), under the environment `env`, and validates it. -/
def FleetConfig.load
    (path : String)
    (file : Option String)
    (env : List (String × String)) :
    Except Halt FleetConfig :=
  match file with
  | none => throw (.error (.config ("config file " ++ path ++ " does not exist")))
  | some text => FleetConfig.loadFound path path text env

end NeuronFleet
