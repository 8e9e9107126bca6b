/-!
# Causes

Why an operation of the platform failed: a root cause and the contexts it was put into on its way
out.
-/

namespace FirmwareUpdate

structure Cause where
  root : String
  contexts : List String
  deriving DecidableEq, Repr

namespace Cause

def of (root : String) : Cause := ⟨root, []⟩

def within (context : String) (c : Cause) : Cause := { c with contexts := context :: c.contexts }

def top (c : Cause) : String := c.contexts.headD c.root

def full (c : Cause) : String := ": ".intercalate (c.contexts ++ [c.root])

def ofChain : List String → Cause
  | [] => of ""
  | root :: contexts => ⟨root, contexts.reverse⟩

end Cause

end FirmwareUpdate
