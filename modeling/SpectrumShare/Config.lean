import SpectrumShare.Text

/-! # Configuration from the environment -/
namespace SpectrumShare

structure Config where
  /-- The most workers to use; none leaves it to the machine. -/
  workers : Option Nat
  logJson : Bool
  deriving DecidableEq, Repr

namespace Config

def standard : Config := ⟨none, false⟩

/-- A worker cap of zero or one that is no count is ignored. -/
def workerCap? (text : String) : Option Nat := (Text.count? text).filter (0 < ·)

def isYes (text : String) : Bool :=
  ["1", "true", "yes"].contains (String.ofList ((Text.trim text).toList.map Char.toLower))

def ofEnvironment (lookup : String → Option String) : Config where
  workers := (lookup "IAP_WORKERS").bind workerCap?
  logJson := (lookup "IAP_LOG_JSON").any isYes

/-- A cap from the command line stands before one from the environment. -/
def withWorkers (c : Config) (workers : Option Nat) : Config :=
  { c with workers := workers.or c.workers }

end Config

end SpectrumShare
