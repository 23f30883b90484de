import Amalgam.Merge.Kind
import Amalgam.Item

/-! # Events

What a run may log. An event has a level, the part of the program that logs it and a text; how
talkative a run is decides which levels it shows.
-/

namespace Amalgam

inductive Level where
  | debug
  | info
  | warning
deriving DecidableEq, Repr

def Level.name : Level → Text
  | .debug => "DEBUG"
  | .info => "INFO"
  | .warning => "WARNING"

def Level.shownAt (verbosity : Nat) : Level → Bool
  | .warning => true
  | .info => 1 ≤ verbosity
  | .debug => 2 ≤ verbosity

inductive Event where
  | passStarted (manifest : Path) (items : Nat)
  | stageStarted (description : Text) (items : Nat)
  | cacheMerged (module : Text) (incoming carried : Nat)
  | dependencyCycle (filenames : List Text)
  | bucketMerged (parts : Nat) (filename : Text) (kind : Merge.MergeKind)
      (platform : Option Platform)
  | moduleCombined (module : Text) (fragments files : Nat)
  | unknownListedModule (module : Text)
  | placeholdersMade (module : Text) (items : Nat)
  | outputWritten (path : Path)
deriving DecidableEq, Repr

namespace Event

def level : Event → Level
  | .dependencyCycle _ => .warning
  | .passStarted .. | .stageStarted .. | .moduleCombined .. => .info
  | .cacheMerged .. | .bucketMerged .. | .unknownListedModule _ | .placeholdersMade ..
  | .outputWritten _ => .debug

def logger : Event → Text
  | .passStarted .. | .outputWritten _ => "valdic.compiler"
  | .stageStarted .. => "valdic.pipeline.processor"
  | .cacheMerged .. => "valdic.processors.native_cache"
  | .dependencyCycle _ => "valdic.processors.native_ordering"
  | .bucketMerged .. | .moduleCombined .. | .unknownListedModule _ =>
    "valdic.processors.combine_native_sources"
  | .placeholdersMade .. => "valdic.processors.native_placeholders"

def message : Event → Text
  | .passStarted manifest items => "pass " ++ manifest.text ++ ": " ++ toString items ++ " item(s)"
  | .stageStarted description items => description ++ " (" ++ toString items ++ " items)"
  | .cacheMerged module incoming carried =>
    "native source cache for module '" ++ module ++ "': " ++ toString incoming ++ " incoming, " ++
      toString carried ++ " carried over"
  | .dependencyCycle filenames =>
    "dependency cycle between native sources " ++ Text.joinWith ", " filenames ++
      "; falling back to priority/filename order"
  | .bucketMerged parts filename kind platform =>
    let platform := (platform.map Platform.name).getD "-"
    "merged " ++ toString parts ++ " fragment(s) into '" ++ filename ++ "' (" ++ kind.name ++
      ", platform=" ++ platform ++ ")"
  | .moduleCombined module fragments files =>
    "combined " ++ toString fragments ++ " native source(s) of module '" ++ module ++ "' into " ++
      toString files ++ " file(s)"
  | .unknownListedModule module => "skipping placeholders for unknown module '" ++ module ++ "'"
  | .placeholdersMade module items =>
    "synthesized " ++ toString items ++ " placeholder item(s) for module '" ++ module ++ "'"
  | .outputWritten path => "wrote " ++ path.text

def line (e : Event) : Text := e.level.name ++ " " ++ e.logger ++ ": " ++ e.message ++ "\n"

end Event

end Amalgam
