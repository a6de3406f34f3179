import Awl.Runs
import Mathlib.Data.List.Basic

/-!
Starting and stopping the application.

`Init` opens one thing after the other and returns at the first that fails; `Close` closes what the
fields of the application refer to, and takes it for granted that a P2P service has its host and the
API its server. The Android library and the tray application call `Close` after a start that has
failed, and go on.
-/

namespace Awl

namespace Lifecycle

/-! ### The application -/

/-- What is opened while the application starts. -/
inductive Resource
  | context | dht | host | tun | tunnel | listener | web | admin | resolver | osConfigurator
  deriving DecidableEq

/-- How a function ends that does not return normally. -/
inductive Stop
  | error | panic
  deriving DecidableEq

structure P2p where
  dht : Bool := false
  host : Bool := false

structure DNSService where
  dnsOsConfigurator : Bool := false
  dnsResolver : Bool := false

structure SOCKS5 where
  client : Bool

structure Handler where
  echo : Bool := false
  echoAdmin : Bool := false

/-- The fields that are `nil` at first. What has been opened is what they refer to, apart from what
is `stranded`. -/
structure Application where
  ctxCancel : Bool := false
  p2p : Option P2p := none
  vpnDevice : Bool := false
  tunnel : Bool := false
  dns : Option DNSService := none
  socks5 : Option SOCKS5 := none
  api : Option Handler := none
  /-- what was opened, and no field refers to -/
  stranded : List Resource := []
  closed : List Resource := []

abbrev Step := ExceptT Stop (StateM Application)

/-! ### `Init` -/

/-- The outcome of `InitHost`, which may have created the DHT before it fails. -/
inductive HostFate
  | created
  | failed (dht : Bool)

/-- The outcome of `vpn.NewDevice`: it asks for the MTU of the device it has created. -/
inductive VPNFate
  | disabled | noDevice | noMTU | created

inductive ListenFate
  | disabled | failed | listening

/-- The outcome of setting up the DNS. In `badHost` the address to listen on has a host that is no
IP; a configurator that fails later on is `configured` as well. -/
inductive DNSFate
  | disabled | noInterfaceName | badAddress | noConfigurator | badHost | configured

/-- What becomes of the steps of `Init` that are switched off or fail. -/
structure Fates where
  host : HostFate
  vpn : VPNFate
  socks5 : ListenFate
  web : Bool
  admin : ListenFate
  dns : DNSFate

def initHost (f : Fates) : Step Unit := do
  match f.host with
  | .created => modify fun a => { a with p2p := some { dht := true, host := true } }
  | .failed dht =>
    modify fun a => { a with p2p := some { dht := dht } }
    throw .error

def initVPN (f : Fates) : Step Unit := do
  match f.vpn with
  | .disabled => return
  | .noDevice => throw .error
  | .noMTU =>
    -- the device is not closed, and `a.vpnDevice` is `nil`
    modify fun a => { a with stranded := .tun :: a.stranded }
    throw .error
  | .created => modify fun a => { a with vpnDevice := true, tunnel := true }

def initSOCKS5 (f : Fates) : Step Unit := do
  match f.socks5 with
  | .disabled => modify fun a => { a with socks5 := some { client := false } }
  | .failed => throw .error
  | .listening => modify fun a => { a with socks5 := some { client := true } }

def setupAPI (f : Fates) : Step Unit := do
  -- `a.Api` is set before anything can fail
  modify fun a => { a with api := some {} }
  if !f.web then throw .error
  modify fun a => { a with api := some { echo := true } }
  match f.admin with
  | .listening => modify fun a => { a with api := some { echo := true, echoAdmin := true } }
  | .disabled | .failed => return

def initDNS (f : Fates) : Step Unit := do
  match f.dns with
  -- in the first two it is not called
  | .disabled | .noInterfaceName | .badAddress => return
  | .noConfigurator => modify fun a => { a with dns := some { dnsResolver := true } }
  | .badHost =>
    modify fun a => { a with dns := some { dnsResolver := true, dnsOsConfigurator := true } }
    -- `netip.MustParseAddr`
    throw .panic
  | .configured =>
    modify fun a => { a with dns := some { dnsResolver := true, dnsOsConfigurator := true } }

def init (f : Fates) : Step Unit := do
  modify fun a => { a with ctxCancel := true, p2p := some {} }
  initHost f
  initVPN f
  modify fun a => { a with dns := some {} }
  initSOCKS5 f
  setupAPI f
  match f.vpn with
  | .created => initDNS f
  | _ => return

/-! ### `Close` -/

def close (r : Resource) : Step Unit := modify fun a => { a with closed := a.closed ++ [r] }

/-- A method call on what may be `nil`. -/
def closeOrPanic (present : Bool) (r : Resource) : Step Unit :=
  if present then close r else throw .panic

def closeIf (present : Bool) (r : Resource) : Step Unit := if present then close r else pure ()

def Handler.shutdown (h : Handler) : Step Unit := do
  closeIf h.echoAdmin .admin
  closeOrPanic h.echo .web

def P2p.close (p : P2p) : Step Unit := do
  closeOrPanic p.dht .dht
  closeOrPanic p.host .host

def SOCKS5.close (s : SOCKS5) : Step Unit := closeIf s.client .listener

def DNSService.close (d : DNSService) : Step Unit := do
  closeIf d.dnsOsConfigurator .osConfigurator
  closeIf d.dnsResolver .resolver

/-- A component is closed unless its field is `nil`. -/
def closeField {α : Type} (close : α → Step Unit) : Option α → Step Unit
  | some x => close x
  | none => pure ()

def Application.close (a : Application) : Step Unit := do
  closeIf a.ctxCancel .context
  closeField Handler.shutdown a.api
  closeIf a.tunnel .tunnel
  closeField SOCKS5.close a.socks5
  closeField P2p.close a.p2p
  closeField DNSService.close a.dns
  closeIf a.vpnDevice .tun

/-! ### What is open -/

def Handler.held (h : Handler) : List Resource :=
  (if h.echoAdmin then [.admin] else []) ++ if h.echo then [.web] else []

def P2p.held (p : P2p) : List Resource :=
  (if p.dht then [.dht] else []) ++ if p.host then [.host] else []

def SOCKS5.held (s : SOCKS5) : List Resource := if s.client then [.listener] else []

def DNSService.held (d : DNSService) : List Resource :=
  (if d.dnsOsConfigurator then [.osConfigurator] else []) ++
    if d.dnsResolver then [.resolver] else []

/-- What the fields refer to. -/
def Application.held (a : Application) : List Resource :=
  (if a.ctxCancel then [.context] else []) ++ a.api.elim [] Handler.held ++
  (if a.tunnel then [.tunnel] else []) ++ a.socks5.elim [] SOCKS5.held ++
  a.p2p.elim [] P2p.held ++ a.dns.elim [] DNSService.held ++
  if a.vpnDevice then [.tun] else []

def Application.running (a : Application) : List Resource :=
  a.held.filter (· ∉ a.closed) ++ a.stranded

/-- What `Close` takes for granted. -/
def Application.complete (a : Application) : Bool :=
  a.p2p.all (fun p => p.dht && p.host) && a.api.all Handler.echo

/-- The step returns, and has closed these. -/
def Closes (x : Step Unit) (rs : List Resource) : Prop :=
  ∀ a, x.run a = (.ok (), { a with closed := a.closed ++ rs })

def Panics (x : Step Unit) : Prop := ∀ a, ∃ a', x.run a = (.error .panic, a')

section Seq

variable {x y : Step Unit} {rs ss : List Resource}

lemma run_seq (a : Application) : (x >>= fun _ => y).run a =
    match (x.run a).1 with
    | .ok _ => y.run (x.run a).2
    | .error e => (.error e, (x.run a).2) := by
  change ExceptT.bindCont (fun _ => y) (x.run a).1 (x.run a).2 = _
  cases (x.run a).1 <;> rfl

lemma Closes.seq (hx : Closes x rs) (hy : Closes y ss) : Closes (x >>= fun _ => y) (rs ++ ss) := by
  intro a
  simp only [run_seq, hx a, hy _, List.append_assoc]

lemma Closes.seq_panics (hx : Closes x rs) (hy : Panics y) : Panics (x >>= fun _ => y) := by
  intro a
  simp only [run_seq, hx a]
  exact hy _

lemma Panics.seq (hx : Panics x) : Panics (x >>= fun _ => y) := by
  intro a
  obtain ⟨a', h⟩ := hx a
  exact ⟨a', by simp only [run_seq, h]⟩

end Seq

lemma closes_close (r : Resource) : Closes (close r) [r] := fun _ => rfl

lemma closes_pure : Closes (pure ()) [] := fun a => by
  change _ = (Except.ok (), { a with closed := a.closed ++ [] })
  rw [List.append_nil]
  rfl

lemma closes_closeIf (present : Bool) (r : Resource) :
    Closes (closeIf present r) (if present then [r] else []) := by
  cases present
  · exact closes_pure
  · exact closes_close r

lemma panics_throw : Panics (throw .panic) := fun a => ⟨a, rfl⟩

lemma Handler.closes_shutdown {h : Handler} (echo : h.echo = true) :
    Closes h.shutdown h.held := by
  rw [Handler.shutdown, Handler.held, echo]
  exact (closes_closeIf _ _).seq (closes_close _)

lemma Handler.panics_shutdown {h : Handler} (echo : h.echo = false) : Panics h.shutdown := by
  rw [Handler.shutdown, echo]
  exact (closes_closeIf _ _).seq_panics panics_throw

lemma P2p.closes_close {p : P2p} (h : (p.dht && p.host) = true) : Closes p.close p.held := by
  obtain ⟨dht, host⟩ := Bool.and_eq_true_iff.mp h
  rw [P2p.close, P2p.held, dht, host]
  exact (Lifecycle.closes_close _).seq (Lifecycle.closes_close _)

lemma P2p.panics_close {p : P2p} (h : (p.dht && p.host) = false) : Panics p.close := by
  rw [P2p.close]
  cases hdht : p.dht with
  | false => exact panics_throw.seq
  | true =>
    rw [hdht, Bool.true_and] at h
    rw [h]
    exact (Lifecycle.closes_close _).seq_panics panics_throw

lemma SOCKS5.closes_close (s : SOCKS5) : Closes s.close s.held := closes_closeIf _ _

lemma DNSService.closes_close (d : DNSService) : Closes d.close d.held :=
  (closes_closeIf _ _).seq (closes_closeIf _ _)

lemma closes_closeField {α : Type} {close : α → Step Unit} {held : α → List Resource}
    {needs : α → Bool} (hclose : ∀ {x}, needs x = true → Closes (close x) (held x))
    {field : Option α} (h : field.all needs = true) :
    Closes (closeField close field) (field.elim [] held) := by
  cases field with
  | none => exact closes_pure
  | some x => exact hclose h

lemma panics_closeField {α : Type} {close : α → Step Unit} {needs : α → Bool}
    (hclose : ∀ {x}, needs x = false → Panics (close x)) {field : Option α}
    (h : field.all needs = false) : Panics (closeField close field) := by
  cases field with
  | none => cases h
  | some x => exact hclose h

lemma closes_socks5 (field : Option SOCKS5) :
    Closes (closeField SOCKS5.close field) (field.elim [] SOCKS5.held) :=
  closes_closeField (fun {s} _ => s.closes_close) Option.all_true

lemma closes_dns (field : Option DNSService) :
    Closes (closeField DNSService.close field) (field.elim [] DNSService.held) :=
  closes_closeField (fun {d} _ => d.closes_close) Option.all_true

/-- A complete application closes all it refers to. -/
theorem Application.closes_close {a : Application} (h : a.complete = true) :
    Closes a.close a.held := by
  obtain ⟨hp2p, hapi⟩ := Bool.and_eq_true_iff.mp h
  rw [Application.close, Application.held]
  simp only [List.append_assoc]
  exact (closes_closeIf _ _).seq <| (closes_closeField Handler.closes_shutdown hapi).seq <|
    (closes_closeIf _ _).seq <| (closes_socks5 _).seq <|
    (closes_closeField P2p.closes_close hp2p).seq <| (closes_dns _).seq <| closes_closeIf _ _

/-- Any other does not return from `Close`. -/
theorem Application.panics_close {a : Application} (h : a.complete = false) : Panics a.close := by
  refine (closes_closeIf _ _).seq_panics ?_
  cases hapi : a.api.all Handler.echo with
  | false => exact (panics_closeField Handler.panics_shutdown hapi).seq
  | true =>
    rw [Application.complete, hapi, Bool.and_true] at h
    refine (closes_closeField Handler.closes_shutdown hapi).seq_panics ?_
    refine (closes_closeIf _ _).seq_panics ((closes_socks5 _).seq_panics ?_)
    exact (panics_closeField P2p.panics_close h).seq

/-! ### How a start ends -/

/-- The steps `Init` can stop at. -/
inductive Stage
  | host | device | mtu | listener | web | dns
  deriving DecidableEq

def Fates.stop (f : Fates) : Option Stage :=
  match f.host, f.vpn, f.socks5, f.web, f.dns with
  | .failed _, _, _, _, _ => some .host
  | .created, .noDevice, _, _, _ => some .device
  | .created, .noMTU, _, _, _ => some .mtu
  | .created, _, .failed, _, _ => some .listener
  | .created, _, _, false, _ => some .web
  | .created, .created, _, true, .badHost => some .dns
  | .created, _, _, true, _ => none

/-- Only the address of the DNS makes `Init` panic. -/
def Stage.stops : Stage → Stop
  | .dns => .panic
  | _ => .error

structure Starts (f : Fates) (a : Application) : Prop where
  complete : a.complete = (f.stop ≠ some .host ∧ f.stop ≠ some .web : Bool)
  stranded : a.stranded = if f.stop = some .mtu then [.tun] else []
  ctxCancel : a.ctxCancel = true
  closed : a.closed = []

theorem init_run (f : Fates) :
    ((init f).run {}).1 = f.stop.elim (.ok ()) (fun s => .error s.stops) ∧
      Starts f ((init f).run {}).2 := by
  obtain ⟨host, vpn, socks5, web, admin, dns⟩ := f
  cases host with
  | failed dht => cases dht <;> exact ⟨rfl, rfl, rfl, rfl, rfl⟩
  | created =>
    cases vpn with
    | noDevice => exact ⟨rfl, rfl, rfl, rfl, rfl⟩
    | noMTU => exact ⟨rfl, rfl, rfl, rfl, rfl⟩
    | disabled =>
      cases socks5 <;> try exact ⟨rfl, rfl, rfl, rfl, rfl⟩
      all_goals cases web <;> cases admin <;> exact ⟨rfl, rfl, rfl, rfl, rfl⟩
    | created =>
      cases socks5 <;> try exact ⟨rfl, rfl, rfl, rfl, rfl⟩
      all_goals cases web <;> try exact ⟨rfl, rfl, rfl, rfl, rfl⟩
      all_goals cases admin <;> cases dns <;> exact ⟨rfl, rfl, rfl, rfl, rfl⟩

/-! ### The processes that start and stop it -/

structure Server where
  app : Option Application := none
  /-- what is open in applications that nothing refers to any more -/
  lost : List Resource := []
  crashed : Bool := false

/-- Another application is assigned to the variable. -/
def Server.abandon (s : Server) : Server :=
  { s with app := none, lost := s.lost ++ s.app.elim [] Application.running }

/-- `Close`, followed by forgetting the application unless it panics. -/
def Server.closeApp (s : Server) (a : Application) : Server × Bool :=
  match a.close.run a with
  | (.ok _, a') => ({ s with app := none, lost := s.lost ++ a'.running }, false)
  | (.error _, a') => ({ s with app := some a' }, true)

/-- An application that is up, with nothing stranded. -/
structure Application.Whole (a : Application) : Prop where
  complete : a.complete = true
  stranded : a.stranded = []
  ctxCancel : a.ctxCancel = true
  closed : a.closed = []

lemma Application.Whole.running_ne {a : Application} (h : a.Whole) : a.running ≠ [] := by
  have : Resource.context ∈ a.running := by
    simp [Application.running, Application.held, h.ctxCancel, h.closed]
  exact List.ne_nil_of_mem this

lemma running_of_closed (a : Application) : { a with closed := a.held }.running = a.stranded := by
  have : a.held.filter (· ∉ a.held) = [] := by simp
  change a.held.filter (· ∉ a.held) ++ a.stranded = _
  rw [this, List.nil_append]

lemma closeApp_of_complete (s : Server) {a : Application} (h : a.complete = true)
    (hclosed : a.closed = []) :
    s.closeApp a = ({ s with app := none, lost := s.lost ++ a.stranded }, false) := by
  have hrun : a.close.run a = (.ok (), { a with closed := a.held }) := by
    rw [Application.closes_close h a, hclosed, List.nil_append]
  rw [Server.closeApp, hrun]
  simp only [running_of_closed]

lemma closeApp_of_incomplete (s : Server) {a : Application} (h : a.complete = false) :
    ∃ a', s.closeApp a = ({ s with app := some a' }, true) := by
  obtain ⟨a', hrun⟩ := Application.panics_close h a
  exact ⟨a', by rw [Server.closeApp, hrun]⟩

lemma Starts.whole {f : Fates} {a : Application} (h : Starts f a) (hstop : f.stop = none) :
    a.Whole where
  complete := by rw [h.complete, hstop]; rfl
  stranded := by rw [h.stranded, hstop]; rfl
  ctxCancel := h.ctxCancel
  closed := h.closed

lemma run_init_of_none {f : Fates} (hstop : f.stop = none) :
    ∃ a, (init f).run {} = (.ok (), a) ∧ a.Whole := by
  obtain ⟨hr, ha⟩ := init_run f
  rw [hstop] at hr
  exact ⟨_, Prod.ext hr rfl, ha.whole hstop⟩

/-- What becomes of an application that is closed after its start was stopped. -/
def Stage.Cleanup (stage : Stage) (a : Application) : Prop :=
  ∀ s : Server, match stage with
    | .host | .web => ∃ a', s.closeApp a = ({ s with app := some a' }, true)
    | .mtu => s.closeApp a = ({ s with app := none, lost := s.lost ++ [.tun] }, false)
    | .device | .listener | .dns => s.closeApp a = ({ s with app := none }, false)

lemma run_init_of_some {f : Fates} {stage : Stage} (hstop : f.stop = some stage) :
    ∃ a, (init f).run {} = (.error stage.stops, a) ∧ stage.Cleanup a := by
  obtain ⟨hr, ha⟩ := init_run f
  have hcomplete := ha.complete
  have hstranded := ha.stranded
  rw [hstop] at hr hcomplete hstranded
  refine ⟨_, Prod.ext hr rfl, fun s => ?_⟩
  cases stage with
  | host | web => exact closeApp_of_incomplete s hcomplete
  | mtu => rw [closeApp_of_complete s hcomplete ha.closed, hstranded, if_pos rfl]
  | device | listener | dns =>
    rw [closeApp_of_complete s hcomplete ha.closed, hstranded, if_neg (by simp), List.append_nil]

/-! ### The Android library -/

namespace Mobile

/-- `started` is what the caller was told. -/
structure Library extends Server where
  started : Bool := false

def startServer (f : Fates) (s : Library) : Library :=
  let server := s.abandon
  match (init f).run {} with
  | (.ok _, a) => { server with app := some a, started := true }
  | (.error .error, a) => { (server.closeApp a).1 with started := false }
  | (.error .panic, a) => { server with app := some a, started := false }

def stopServer (s : Library) : Library :=
  match s.app with
  | some a =>
    let (server, panicked) := s.closeApp a
    { server with crashed := panicked, started := false }
  | none => { s with started := false }

def importConfig (s : Library) : Library := { s with crashed := s.app.isSome }

inductive Call
  | startServer (f : Fates)
  | stopServer
  | importConfig

def step (s : Library) (c : Call) : Library :=
  if s.crashed then s else
  match c with
  | .startServer f => startServer f s
  | .stopServer => stopServer s
  | .importConfig => importConfig s

/-- The caller knows whether an application is up, and nothing else is open. -/
structure Sound (s : Library) : Prop where
  crashed : s.crashed = false
  lost : s.lost = []
  started : s.started = s.app.isSome
  whole : ∀ a ∈ s.app, a.Whole

/-- The calls that keep it so. -/
def Safe (s : Library) : Call → Prop
  | .startServer f =>
    s.started = false ∧ (f.stop = none ∨ f.stop = some .device ∨ f.stop = some .listener)
  | .stopServer => True
  | .importConfig => s.started = false

lemma lost_startServer_ne {f : Fates} {s : Library} (h : s.abandon.lost ≠ []) :
    (startServer f s).lost ≠ [] := by
  unfold startServer Server.closeApp
  dsimp only
  repeat' split
  all_goals simp [h]

lemma sound_none : Sound {} := ⟨rfl, rfl, rfl, fun _ h => nomatch h⟩

/-- Starting while nothing runs. -/
lemma sound_startServer_none (f : Fates) {s : Library} (hs : Sound s) (happ : s.app = none) :
    Sound (startServer f s) ↔
      f.stop = none ∨ f.stop = some .device ∨ f.stop = some .listener := by
  have habandon : s.abandon = {} := by
    simp [Server.abandon, happ, hs.lost, hs.crashed]
  cases hstop : f.stop with
  | none =>
    obtain ⟨a, hrun, ha⟩ := run_init_of_none hstop
    simp only [startServer, habandon, hrun]
    exact iff_of_true ⟨rfl, rfl, rfl, by simpa using ha⟩ (by simp)
  | some stage =>
    obtain ⟨a, hrun, hclean⟩ := run_init_of_some hstop
    specialize hclean {}
    simp only [startServer, habandon, hrun]
    cases stage with
    | device | listener =>
      simp only [Stage.stops, hclean]
      exact iff_of_true sound_none (by simp)
    | mtu =>
      simp only [Stage.stops, hclean]
      exact iff_of_false (fun h => nomatch h.lost) (by simp)
    | host | web =>
      obtain ⟨a', hclean⟩ := hclean
      simp only [Stage.stops, hclean]
      exact iff_of_false (fun h => nomatch h.started) (by simp)
    | dns => exact iff_of_false (fun h => nomatch h.started) (by simp)

lemma sound_startServer (f : Fates) {s : Library} (hs : Sound s) :
    Sound (startServer f s) ↔ Safe s (.startServer f) := by
  have hstarted := hs.started
  cases happ : s.app with
  | none =>
    rw [happ] at hstarted
    rw [sound_startServer_none f hs happ]
    simp [Safe, hstarted]
  | some a =>
    -- what runs is out of reach, however the start ends
    rw [happ] at hstarted
    have hlost : s.abandon.lost ≠ [] := by
      simp [Server.abandon, happ, (hs.whole a happ).running_ne]
    exact iff_of_false (fun h => lost_startServer_ne hlost h.lost) (by simp [Safe, hstarted])

lemma sound_stopServer {s : Library} (hs : Sound s) : Sound (stopServer s) := by
  unfold stopServer
  cases happ : s.app with
  | none => exact ⟨hs.crashed, hs.lost, by simp [happ], by simp [happ]⟩
  | some a =>
    have ha := hs.whole a happ
    dsimp only
    rw [closeApp_of_complete _ ha.complete ha.closed]
    exact ⟨rfl, by simp [hs.lost, ha.stranded], rfl, by simp⟩

lemma sound_importConfig {s : Library} (hs : Sound s) :
    Sound (importConfig s) ↔ s.started = false := by
  rw [hs.started]
  exact ⟨fun h => h.crashed, fun h => ⟨h, hs.lost, hs.started, hs.whole⟩⟩

lemma sound_step {s : Library} (hs : Sound s) (c : Call) : Sound (step s c) ↔ Safe s c := by
  unfold step
  rw [if_neg (by simp [hs.crashed])]
  cases c with
  | startServer f => exact sound_startServer f hs
  | stopServer => exact iff_of_true (sound_stopServer hs) trivial
  | importConfig => exact sound_importConfig hs

end Mobile

/-! ### The tray application -/

namespace Tray

def initServer (f : Fates) (s : Server) : Server :=
  let s := s.abandon
  match (init f).run {} with
  | (.ok _, a) => { s with app := some a }
  | (.error _, a) =>
    -- deferred, after the recovery
    let (s, panicked) := s.closeApp a
    { s with crashed := panicked }

def stopServer (s : Server) : Server :=
  match s.app with
  -- `app` is not set to `nil` if `Close` panics
  | some a => (s.closeApp a).1
  | none => s

/-- The entries of the menu; `stop` stands for those that stop a server that runs: editing the
configuration, the update, and leaving. -/
inductive Click
  | startStop (f : Fates)
  | restart (f : Fates)
  | stop

def step (s : Server) (c : Click) : Server :=
  if s.crashed then s else
  match c with
  | .startStop f => if s.app.isSome then stopServer s else initServer f s
  | .restart f => initServer f (stopServer s)
  | .stop => stopServer s

/-- The tray has not crashed, and nothing is open beside a whole application. -/
structure Sound (s : Server) : Prop where
  crashed : s.crashed = false
  lost : s.lost = []
  whole : ∀ a ∈ s.app, a.Whole

def Tidy (f : Fates) : Prop :=
  f.stop = none ∨ f.stop = some .device ∨ f.stop = some .listener ∨ f.stop = some .dns

def Safe (s : Server) : Click → Prop
  | .startStop f => s.app = none → Tidy f
  | .restart f => Tidy f
  | .stop => True

lemma Sound.eq_of_none {s : Server} (hs : Sound s) (happ : s.app = none) : s = {} := by
  obtain ⟨hcrashed, hlost, -⟩ := hs
  cases s
  simp_all

lemma stopServer_eq {s : Server} (hs : Sound s) : stopServer s = {} := by
  unfold stopServer
  cases happ : s.app with
  | none => exact hs.eq_of_none happ
  | some a =>
    have ha := hs.whole a happ
    simp only [closeApp_of_complete _ ha.complete ha.closed]
    simp [ha.stranded, hs.lost, hs.crashed]

lemma sound_none : Sound {} := ⟨rfl, rfl, fun _ h => nomatch h⟩

lemma sound_initServer (f : Fates) : Sound (initServer f {}) ↔ Tidy f := by
  have habandon : Server.abandon {} = {} := rfl
  unfold Tidy
  cases hstop : f.stop with
  | none =>
    obtain ⟨a, hrun, ha⟩ := run_init_of_none hstop
    simp only [initServer, habandon, hrun]
    exact iff_of_true ⟨rfl, rfl, by simpa using ha⟩ (by simp)
  | some stage =>
    obtain ⟨a, hrun, hclean⟩ := run_init_of_some hstop
    specialize hclean {}
    simp only [initServer, habandon, hrun]
    cases stage with
    | device | listener | dns =>
      simp only [hclean]
      exact iff_of_true sound_none (by simp)
    | mtu =>
      simp only [hclean]
      exact iff_of_false (fun h => nomatch h.lost) (by simp)
    | host | web =>
      obtain ⟨a', hclean⟩ := hclean
      simp only [hclean]
      exact iff_of_false (fun h => nomatch h.crashed) (by simp)

lemma sound_step {s : Server} (hs : Sound s) (c : Click) : Sound (step s c) ↔ Safe s c := by
  unfold step
  rw [if_neg (by simp [hs.crashed])]
  have hstop : Sound (stopServer s) := by
    rw [stopServer_eq hs]
    exact sound_none
  cases c with
  | startStop f =>
    dsimp only [Safe]
    cases happ : s.app with
    | none =>
      rw [hs.eq_of_none happ]
      simpa using sound_initServer f
    | some a => simpa using hstop
  | restart f =>
    dsimp only [Safe]
    rw [stopServer_eq hs]
    exact sound_initServer f
  | stop => exact iff_of_true hstop trivial

end Tray

end Lifecycle

end Awl
