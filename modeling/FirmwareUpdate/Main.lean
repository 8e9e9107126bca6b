import FirmwareUpdate.Agent

/-!
# Command line

Runs the agent's update cycle and prints what it logs. The variable `OTA_LOG` sets the verbosity.
-/

open FirmwareUpdate

def main : IO UInt32 := do
  let name ← IO.getEnv "OTA_LOG"
  let start ← IO.monoMsNow
  let w := Agent.run name
  for e in w.device.journal do
    let elapsed := (← IO.monoMsNow) - start
    let stamp := Console.uptime (elapsed / 1000) (elapsed % 1000)
    for (_, line) in Agent.lines stamp (Agent.console name) [e] do
      IO.println line
  if Agent.succeeded w then return 0
  else
    IO.eprintln "Error: new firmware was not validated"
    return 1
