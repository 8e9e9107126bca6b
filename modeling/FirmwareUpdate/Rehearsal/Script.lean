import FirmwareUpdate.Engine.Booting

/-!
# Scripts

In a rehearsal the engine runs on a simulated device with an application that follows a script. A
script says what is done with the device one thing after the other, what the network answers and
what happens meanwhile, and what handlers and self-tests do. What is told about the device has a
type `ν` of its own.
-/

namespace FirmwareUpdate.Rehearsal

inductive Ending where
  | settle (outcome : ApplyOutcome)
  | download
  | flash
  | die

structure HandlerScript (S : Type) where
  showJob : Bool
  progress : List String
  reports : List (JobStatus × String)
  steps : List S
  hold : Bool
  ending : Ending

structure TestScript (S : Type) where
  steps : List S
  result : Diagnosis

inductive ConfigChoice where
  | given (c : Config)
  | stored

inductive Op (ν : Type) where
  /-- A look at the device, or a change of it, by itself: the faults of the platform spare it. -/
  | access (f : Device → ν × Device)
  | prepare (f : Device → Device)
  | queueGet (reply : Reply) (during : List (String × Op ν))
  | queuePost (count : Nat) (reply : Reply) (during : List (String × Op ν))
  | boot (version : String)
  | reboot
  -- what needs a booted engine
  | enable (config : ConfigChoice) (handler : Option (HandlerScript (String × Op ν)))
      (test : Option (TestScript (String × Op ν)))
  | disable
  | markValid
  | markInvalid
  | status
  | fetch
  /-- A fetch on a thread of its own, which a handler may hold. -/
  | startFetch
  | tick
  -- what goes on beside it
  | letGo
  | fireRollback
  | confirmStep
  | confirm
  -- parts of the engine by themselves
  | get (path : String)
  | post (path : String) (body : Bytes)
  | reportFor (id : String) (status : JobStatus) (info : String)
  | reportLogged (id : String) (status : JobStatus) (info : String)
  | report (job : Option Job) (status : JobStatus) (info : String)
  | confirmSuccess (interval : Nat) (cancelled : Bool)
  | download (job : Job) (chunkSize : Nat)
  | apply (handler : Option (HandlerScript (String × Op ν))) (job : Job) (chunkSize : Nat) (stack : Nat := 0)

instance {ν : Type} : Inhabited (Op ν) := ⟨.status⟩

/-- An operation under the name by which its result is remarked upon. -/
abbrev Step (ν : Type) := String × Op ν

abbrev Scripted (ν : Type) : Application := ⟨HandlerScript (Step ν), TestScript (Step ν)⟩

inductive Ticked where
  | unarmed
  | dropped
  | buffered
  | unheard
  | due (id : TimerId)

inductive Confirming where
  | absent
  | finished
  | retrying
  /-- The next attempt is too far off to be seen. -/
  | waiting
  deriving DecidableEq, Repr

inductive Answer (ν : Type) where
  | ok
  | nothing
  | noEngine
  | busy
  | died
  | held
  | over
  | told (v : ν)
  | refused (e : UpdateError)
  | failed (c : Cause)
  | status (s : EngineStatus)
  | fetched (o : FetchOutcome)
  | applied (o : ApplyOutcome)
  | ticked (t : Ticked)
  | fired (b : Bool)
  | confirming (c : Confirming)
  | confirmed (last : Confirming) (s : ValidationState)
  | response (r : Response)
  | acknowledged (b : Bool)
  | summary (s : ImageSummary)

inductive Remark (ν : Type) where
  | job (job : Job) (chunkSize : Nat)
  | report (r : Except UpdateError Unit)
  | summary (s : ImageSummary)
  | step (name : String) (a : Answer ν)

end FirmwareUpdate.Rehearsal
