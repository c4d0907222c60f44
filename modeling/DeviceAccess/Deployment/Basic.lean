import DeviceAccess.Gateway.Access
import DeviceAccess.Identity.Registry
import DeviceAccess.Retry

/-!
# Deployments

A gateway as it runs: with the registry that stands in for the cloud, a clock, and the tasks that are
carried out in the background.  Tasks make their passes only while somebody waits
(`Deployment.wait`); a task makes its first pass at the start of the first wait after it was added and
its next one a period later, or a backoff later if it repeats a failed call.

Every call to the registrar goes through `Deployment.callRegistrar`.
-/

namespace DeviceAccess

/-- Who may stop a task. -/
inductive TaskOwner where
  | caller
  /-- The settings of the session sweeps. -/
  | sessions
  | service
  deriving DecidableEq, Repr

/-- The registration of an authority for a core device: the signing certificate, read at the first
pass, and the number of calls made so far. -/
structure Upload where
  thing : String
  certificate : Option String
  calls : Nat
  deriving DecidableEq, Repr

/-- What a task does at each pass.  Periods are in milliseconds. -/
inductive Work where
  | refresh (period : Nat)
  | closeIdle (period timeout : Nat)
  | renew (period : Nat)
  | upload (upload : Upload)
  deriving DecidableEq, Repr

/-- Whether a task can go on: the passes of a sweep lie apart. -/
def Work.goesOn : Work → Bool
  | refresh period => 0 < period
  | closeIdle period _ => 0 < period
  | renew period => 0 < period
  | upload _ => true

/-- A task in the background. -/
structure Task where
  owner : TaskOwner
  work : Work
  /-- The time of the next pass; none before the first wait. -/
  due : Option Nat
  deriving DecidableEq, Repr

/-- A running gateway. -/
structure Deployment where
  gateway : Gateway
  registry : IdentityRegistry
  /-- Milliseconds since the start. -/
  clock : Nat
  /-- Seconds since the start of 1970. -/
  calendar : Int
  tasks : List Task
  /-- Failures of coming calls to the registrar. -/
  registrarFaults : StagedFaults
  /-- Number of calls to the registrar. -/
  registrarCalls : Nat

namespace Deployment

/-- The start of a deployment. -/
def new (gateway : Gateway) (registry : IdentityRegistry) (calendar : Int) : Deployment :=
  ⟨gateway, registry, 0, calendar, [], [], 0⟩

/-- The calendar in milliseconds. -/
def calendarMillis (d : Deployment) : Int := d.calendar * 1000

/-- Takes the outcome of an operation on the gateway. -/
def adopt {α : Type} (d : Deployment) (r : Gateway × α) : Deployment × α :=
  ({ d with gateway := r.1 }, r.2)

/-- Takes an answer of the gateway and counts what was asked for it. -/
def receive {α : Type} (d : Deployment) (a : Gateway.Answer α) : Deployment × Except Fault α :=
  ({ d with gateway := a.gateway, registry := d.registry.countAll a.asked }, a.result)

/-- Asks about all sessions again. -/
def refresh (d : Deployment) : Deployment :=
  let (gateway, asked) := d.gateway.refresh d.registry.source
  { d with gateway, registry := d.registry.countAll asked }

/-! ### Calls to the registrar -/

/-- When a failed upload is repeated: without end, with waits from three seconds to two minutes. -/
def uploadPolicy : RetryPolicy := .unbounded (.ofMillis 3000) (.ofMillis 120000)

/-- Registers an authority for a core device, unless the call is to fail. -/
def callRegistrar (d : Deployment) (faults : StagedFaults) (thing certificate : String) :
    Deployment × StagedFaults × Except Fault Unit :=
  let d := { d with registrarCalls := d.registrarCalls + 1 }
  match faults.next with
  | (some e, faults) => (d, faults, .error e)
  | (none, faults) =>
    let (registry, r) := d.registry.registerAuthorities thing [certificate]
    ({ d with registry }, faults, r)

/-! ### Tasks -/

/-- Adds a task; one that cannot go on ends before its first pass. -/
def addTask (d : Deployment) (owner : TaskOwner) (work : Work) : Deployment :=
  if work.goesOn then { d with tasks := d.tasks ++ [⟨owner, work, none⟩] } else d

/-- Stops the tasks of an owner. -/
def stopTasks (d : Deployment) (owner : TaskOwner) : Deployment :=
  { d with tasks := d.tasks.filter fun t => t.owner ≠ owner }

/-- Number of tasks of an owner. -/
def taskCount (d : Deployment) (owner : TaskOwner) : Nat :=
  (d.tasks.filter fun t => t.owner = owner).length

/-- One call of an upload; the second part is the upload and the wait before its next call, if there
is to be one. -/
def uploadPass (d : Deployment) (u : Upload) : Deployment × Option (Upload × Nat) :=
  let certificate : Except Fault String := match u.certificate with
    | some c => .ok c
    | none => d.gateway.authority.inForce.map (·.signing)
  match certificate with
  | .error _ => (d, none)
  | .ok certificate =>
    let (d, registrarFaults, r) := d.callRegistrar d.registrarFaults u.thing certificate
    let calls := u.calls + 1
    ({ d with registrarFaults },
      (uploadPolicy.next Fault.isTransient calls r).map fun wait =>
        (⟨u.thing, some certificate, calls⟩, wait.millis))

/-- One pass of a task; the second part is what is left to do and when, counted from now. -/
def pass (tk : Toolkit) (d : Deployment) (work : Work) : Deployment × Option (Work × Nat) :=
  match work with
  | .refresh period => (d.refresh, some (work, period))
  | .closeIdle period timeout =>
    ((d.adopt (d.gateway.closeIdle d.clock timeout)).1, some (work, period))
  | .renew period =>
    ((d.adopt (d.gateway.renew tk d.calendar d.calendarMillis)).1, some (work, period))
  | .upload u =>
    let (d, left) := d.uploadPass u
    (d, left.map fun l => (.upload l.1, l.2))

/-! ### Waiting -/

/-- Lets the tasks that were added since the last wait begin. -/
def beginTasks (d : Deployment) : Deployment :=
  { d with tasks := d.tasks.map fun t => { t with due := some (t.due.getD d.clock) } }

/-- The time of the next pass. -/
def nextDue? (d : Deployment) : Option Nat := (d.tasks.filterMap (·.due)).min?

/-- Carries out a task if it is due, and puts it back if it goes on. -/
def carryOut (tk : Toolkit) (d : Deployment) (t : Task) : Deployment :=
  if t.due.all fun due => d.clock < due then { d with tasks := d.tasks ++ [t] }
  else
    match d.pass tk t.work with
    | (d, none) => d
    | (d, some (work, wait)) =>
      { d with tasks := d.tasks ++ [⟨t.owner, work, some (d.clock + wait)⟩] }

/-- Carries out all tasks that are due at a time. -/
def passesAt (tk : Toolkit) (time : Nat) (d : Deployment) : Deployment :=
  d.tasks.foldl (carryOut tk) { d with clock := time, tasks := [] }

/-- Carries out the tasks that are due before `target`, at times from `time` on. -/
def runBefore (tk : Toolkit) (target time : Nat) (d : Deployment) : Deployment :=
  match d.nextDue? with
  | none => d
  | some due =>
    if _h : max time due < target then
      runBefore tk target (max time due + 1) (d.passesAt tk (max time due))
    else d
termination_by target - time

/-- Waits a number of milliseconds.  A pass that is due at the very end is left to the next wait. -/
def wait (tk : Toolkit) (d : Deployment) (millis : Nat) : Deployment :=
  if millis = 0 then d
  else
    let target := d.clock + millis
    { d.beginTasks.runBefore tk target d.clock with clock := target }

end Deployment

end DeviceAccess
