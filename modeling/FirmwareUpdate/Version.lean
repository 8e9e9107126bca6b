/-!
# Version

What the running firmware calls itself.
-/

namespace FirmwareUpdate.Version

def firmware : String := "0.3.2"

def flavor : String := "host-sim"

def banner : String := s!"v{firmware} ({flavor})"

end FirmwareUpdate.Version
