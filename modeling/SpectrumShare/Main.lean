import SpectrumShare.Command

/-! # The program `iap` -/
open SpectrumShare

/-- Prints an answer, but for its file, and gives the exit code. -/
def printAnswer : Command.Answer → IO UInt32
  | .failed context cause => do
    IO.eprintln ("Error: " ++ context ++ (cause.map ("\n\nCaused by:\n    " ++ ·)).getD "")
    return 1
  | .finished lines _ => do
    lines.forM IO.println
    return 0

/-- Writes a file and says what came of it. -/
def writeResults (path text : String) : IO Command.Answer := do
  try
    IO.FS.writeFile path text
    return .finished [Command.writtenLine path] none
  catch _ => return Command.unwritable path

def main (arguments : List String) : IO UInt32 := do
  match Command.parse arguments with
  | .error .help =>
    IO.println "Usage: iap [--workers N] run --scenario FILE [--output FILE]"
    IO.println "       iap [--workers N] demo [--seed N] [--grants N] [--peers N]"
    return 0
  | .error .usage =>
    IO.eprintln "error: see iap --help"
    return 2
  | .ok request =>
    let workers ← IO.getEnv "IAP_WORKERS"
    let logJson ← IO.getEnv "IAP_LOG_JSON"
    let config := Config.ofEnvironment fun name =>
      if name = "IAP_WORKERS" then workers else if name = "IAP_LOG_JSON" then logJson else none
    let text ← match request.task with
      | .run path _ => try some <$> IO.FS.readFile path catch _ => pure none
      | .demo .. => pure none
    let answer := request.answer config 1 text
    let code ← printAnswer answer
    match answer with
    | .finished _ (some (path, text)) => printAnswer (← writeResults path text)
    | _ => return code
