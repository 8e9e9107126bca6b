import FirmwareUpdate.Engine.Clock
import FirmwareUpdate.Version

/-!
# The agent

One full update on a simulated device: the old firmware fetches and applies a job, the device boots
the new image, and the image is tested and confirmed.
-/

namespace FirmwareUpdate.Agent

abbrev application : Application := ⟨Empty, Unit⟩

def behaviour : Behaviour application where
  decide handler := nomatch handler
  diagnose _ w := (.passed, w.note .selfTested)

def imageUrl : String := "https://ota.example.com/firmware/sim-fw.bin"

def image : Bytes := (List.range 65536).map fun i => UInt8.ofNat (i % 251)

def jobBody : Bytes :=
  Json.braces
    [("ota_job_id", Json.quote "sim-1"),
     ("url", Json.quote imageUrl),
     ("file_size", Bytes.ofText (toString image.length)),
     ("fw_version", Json.quote (Version.firmware ++ "-next"))]

def config : Config :=
  { Config.default with
    autofetchPeriodHours := 0
    rollbackTimeoutSecs := 10
    confirmRetryIntervalMs := 250 }

def device : Device :=
  let d := Device.fresh .valid
  let network := d.network.pushGet (.answer ⟨200, jobBody⟩)
  { d with network := network.serve imageUrl (.plain image) }

def firstBoot (config : Config) (d : Device) : Device :=
  let w : World application := .boot (d.note .firstBootHeading) Version.firmware
  let (_, w) := Activity.run behaviour (Activity.enable config none none) w
  match Activity.run behaviour Activity.fetch w with
  | (some (.ok outcome), w) => (w.note (.fetchResult outcome)).device
  | (_, w) => w.device

def interlude (d : Device) : Device :=
  let d := (d.note .secondBootHeading).reboot
  { d with network := d.network.pushPost 1 (.lost "network unreachable") }

def secondBoot (config : Config) (d : Device) : World application :=
  let w : World application := .boot d Version.firmware
  let (_, w) := Activity.run behaviour (Activity.enable config none (some ())) w
  w.awaitConfirmation behaviour (config.rollbackTimeoutSecs.toNat * 1000)

def conclude (w : World application) : World application :=
  let w := w.note (.validationFinished w.engine.validation.state w.device.slots.running)
  w.device.network.posts.foldl (fun w p => w.note (.postSent p)) w

def console (name : Option String) : Console :=
  let (_, c) := Console.silent.install
  match name with
  | some name => (c.setVerbosity name).2
  | none => c

def greeting (name : Option String) : List Event :=
  match name with
  | some name =>
    if (Verbosity.ofName? name).isSome then [.banner Version.banner]
    else [.unknownLevel name, .banner Version.banner]
  | none => [.banner Version.banner]

/-- The whole cycle; it succeeded if the image is valid in the end. -/
def run (name : Option String) : World application :=
  let d := { device with journal := greeting name }
  let (_, d) := d.saveConfig config
  let (config, d) := d.loadConfig
  conclude (secondBoot config (interlude (firstBoot config d)))

def succeeded (w : World application) : Bool := w.engine.validation.state == .valid

def lines (stamp : String) (c : Console) (journal : List Event) : List (String × String) :=
  (journal.filter fun e => c.prints e.level).filterMap fun e =>
    (Console.shortModule? (some e.origin.name)).map fun column =>
      (column, Console.line stamp e.level column e.text)

end FirmwareUpdate.Agent
