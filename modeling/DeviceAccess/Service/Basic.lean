import DeviceAccess.Config.Patch
import DeviceAccess.Deployment.Calls

/-!
# The service

A deployment that is run by settings.  Building the service checks the settings and prepares the work
directory; nothing runs before `Service.start`, which puts the authority in force, records the
configured addresses, subscribes the outputs and adds the background tasks, in this order, up to the
first fault.
-/

namespace DeviceAccess

/-- A deployment with the settings in force. -/
structure Service where
  deployment : Deployment
  settings : Settings
  /-- Whether authorities are registered with the cloud. -/
  registers : Bool

namespace Service

/-- How often certificates are checked for renewal: every thirty seconds. -/
def renewalPeriod : Nat := 30000

/-- Builds the service. -/
def new (world : World) (registry : IdentityRegistry) (calendar : Int) (registers : Bool)
    (settings : Settings) : Except Fault Service := do
  settings.validate
  let (world, made) := world.onDisk fun d => d.makeDirectories settings.workDir
  made
  let gateway := Gateway.new world settings.workDir settings.certificates
  let (gateway, applied) := gateway.applyGroups settings.groups
  applied
  let gateway :=
    { gateway with sessions := gateway.sessions.setCapacity settings.session.capacity.toNat }
  return ⟨.new gateway registry calendar, settings, registers⟩

/-- The files of the service. -/
def disk (s : Service) : Disk := s.deployment.gateway.world.disk

/-- Does something to the files of the service. -/
def onDisk (s : Service) (f : Disk → Disk) : Service :=
  let gateway := s.deployment.gateway
  let world := { gateway.world with disk := f gateway.world.disk }
  { s with deployment := { s.deployment with gateway := { gateway with world } } }

variable (tk : Toolkit)

/-- Takes the outcome of an operation on the deployment. -/
def adopt {α : Type} (s : Service) (r : Deployment × α) : Service × α :=
  ({ s with deployment := r.1 }, r.2)

/-- Takes the outcome of an operation on the gateway. -/
def adoptGateway {α : Type} (s : Service) (r : Gateway × α) : Service × α :=
  s.adopt (s.deployment.adopt r)

/-! ### Parts of the settings -/

/-- Records the configured addresses. -/
def recordAddresses (s : Service) (settings : ConnectivitySettings) : Service :=
  (s.adoptGateway (s.deployment.gateway.recordAddresses tk s.deployment.calendar
    Reachability.configurationSource settings.hostAddresses)).1

/-- Subscribes an output. -/
def subscribeOutput (s : Service) (o : CertificateOutput) : Service × Except Fault Unit :=
  s.adoptGateway (s.deployment.gateway.subscribe tk s.deployment.calendar o.key
    (.directory o.directory))

/-- Subscribes outputs up to the first fault. -/
def subscribeOutputs (s : Service) : List CertificateOutput → Service × Except Fault Unit
  | [] => (s, .ok ())
  | o :: rest =>
    match s.subscribeOutput tk o with
    | (s, .ok ()) => subscribeOutputs s rest
    | (s, .error e) => (s, .error e)

/-- Gives up an output. -/
def unsubscribeOutput (s : Service) (o : CertificateOutput) : Service :=
  (s.adoptGateway (s.deployment.gateway.unsubscribe o.key)).1

/-- Puts the capacity of the session cache in force. -/
def setCapacity (s : Service) (settings : SessionSettings) : Service :=
  let gateway := s.deployment.gateway
  let sessions := gateway.sessions.setCapacity settings.capacity.toNat
  { s with deployment := { s.deployment with gateway := { gateway with sessions } } }

/-- Replaces the tasks that sweep the sessions. -/
def restartSweeps (s : Service) (settings : SessionSettings) : Service :=
  let d := s.deployment.stopTasks .sessions
  let d := d.addTask .sessions (.refresh (settings.refreshInterval * 1000))
  let d := d.addTask .sessions
    (.closeIdle (settings.idleSweepInterval * 1000) (settings.idleTimeout * 1000))
  { s with deployment := d }

/-- Registers the authority in the background, if there is a registrar and a core device. -/
def startUpload (s : Service) (thing : Option String) : Service :=
  match s.registers, thing with
  | true, some thing =>
    { s with deployment := s.deployment.addTask .service (.upload ⟨thing, none, 0⟩) }
  | _, _ => s

/-- Puts the settings of issued certificates in force. -/
def configureLeaves (s : Service) (settings : LeafSettings) : Service :=
  let gateway := s.deployment.gateway
  let subscriptions := gateway.subscriptions.configure settings
  { s with deployment := { s.deployment with gateway := { gateway with subscriptions } } }

/-! ### Start and end -/

/-- Starts the service. -/
def start (s : Service) : Service × Except Fault Unit :=
  match s.adopt (s.deployment.configureAuthority tk [] s.settings.authority) with
  | (s, .error e) => (s, .error e)
  | (s, .ok ()) =>
    let s := s.recordAddresses tk s.settings.connectivity
    match s.subscribeOutputs tk s.settings.outputs with
    | (s, .error e) => (s, .error e)
    | (s, .ok ()) =>
      let s := s.restartSweeps s.settings.session
      let s := { s with deployment := s.deployment.addTask .service (.renew renewalPeriod) }
      (s.startUpload s.settings.thingName, .ok ())

/-- Lets time pass, with the calendar at a point in time. -/
def pass (s : Service) (calendar : Int) (millis : Nat) : Service :=
  { s with deployment := { s.deployment with calendar := calendar }.wait tk millis }

/-- Stops all tasks of the service. -/
def shutdown (s : Service) : Service :=
  { s with deployment := (s.deployment.stopTasks .sessions).stopTasks .service }

end Service

end DeviceAccess
