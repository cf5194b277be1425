import CallRouter.Config.Environment
import CallRouter.Json.Printer
import CallRouter.Yaml.Document
import CallRouter.Yaml.Scalar.Value

/-!
Configuration files. A file holds a YAML document of sections of settings. A setting that it leaves
out has its default, and one that it should not have is passed over, but every setting that it has
must be of its own kind. A configuration is written down as a JSON text, which is a YAML text too.
-/

namespace CallRouter.Config

structure Settings where
  document : Yaml.Document
  entries : List (String × Yaml.Node)

namespace Settings

def node? (settings : Settings) (name : String) : Option (Option Yaml.Node) :=
  match settings.entries.filter (·.1 == name) with
  | [] => some none
  | [(_, node)] => (settings.document.resolve node).map some
  | _ => none

def get {α : Type} (settings : Settings) (name : String) (read : Yaml.Node → Option α)
    (default : α) : Option α := do
  match ← settings.node? name with
  | none => return default
  | some node => read node

def part (settings : Settings) (name : String) : Option Settings :=
  settings.get name (fun node => (node.entries? settings.document).map (⟨settings.document, ·⟩))
    ⟨settings.document, []⟩

end Settings

def readAddress (node : Yaml.Node) : Option Network.Address :=
  node.text? >>= Network.Address.ofText?

def readListener (settings : Settings) : Option Listener := do
  let fallback : Listener := {}
  return {
    bind := ← settings.get "bind_addr" readAddress fallback.bind
    idleSeconds := ← settings.get "idle_timeout_secs" Yaml.Node.word? fallback.idleSeconds
    maxConnections := ← settings.get "max_connections" Yaml.Node.word? fallback.maxConnections
    mode := ← settings.get "wire_mode"
      (fun node => node.name? >>= fun name => Wire.Mode.all.find? (·.name == name))
      fallback.mode }

def readIdentity (settings : Settings) : Option Identity := do
  let fallback : Identity := {}
  return {
    realm := ← settings.get "name" Yaml.Node.text? fallback.realm
    agent := ← settings.get "agent" Yaml.Node.text? fallback.agent }

def readDealer (settings : Settings) : Option Dealer.Options := do
  let fallback : Dealer.Options := {}
  return {
    defaultCancelMode := ← settings.get "default_cancel_mode"
      (fun node => node.name? >>= fun name => (CancelMode.ofName name).toOption)
      fallback.defaultCancelMode
    fanOut := ← settings.get "fan_out" Yaml.Node.bool? fallback.fanOut
    discloseCaller := ← settings.get "disclose_caller" Yaml.Node.bool? fallback.discloseCaller
    metaApi := ← settings.get "meta_api" Yaml.Node.bool? fallback.metaApi }

def readReporting (settings : Settings) : Option Reporting := do
  let fallback : Reporting := {}
  return {
    enabled := ← settings.get "enabled" Yaml.Node.bool? fallback.enabled
    bind := ← settings.get "bind_addr" readAddress fallback.bind }

def ofDocument (document : Yaml.Document) : Option Config := do
  let root ← document.resolve (document.root.getD .absent)
  let settings : Settings := ⟨document, ← root.entries? document⟩
  let dealer ← settings.part "dealer"
  let fallback : Config := {}
  return {
    network := ← settings.part "network" >>= readListener
    identity := ← settings.part "realm" >>= readIdentity
    dealer := ← readDealer dealer
    sweepMilliseconds :=
      ← dealer.get "timeout_sweep_ms" Yaml.Node.word? fallback.sweepMilliseconds
    reporting := ← settings.part "metrics" >>= readReporting }

def ofText (text : String) : Option Config := Yaml.Document.ofText? text >>= ofDocument

def Listener.dict (network : Listener) : Dict :=
  [("bind_addr", .text network.bind.text),
    ("idle_timeout_secs", .ofNat network.idleSeconds),
    ("max_connections", .ofNat network.maxConnections),
    ("wire_mode", .text network.mode.name)]

def identityDict (identity : Identity) : Dict :=
  [("agent", .text identity.agent), ("name", .text identity.realm)]

def dealerDict (options : Dealer.Options) : Dict :=
  [("default_cancel_mode", .text options.defaultCancelMode.name),
    ("disclose_caller", .bool options.discloseCaller),
    ("fan_out", .bool options.fanOut),
    ("meta_api", .bool options.metaApi)]

def Reporting.dict (reporting : Reporting) : Dict :=
  [("bind_addr", .text reporting.bind.text), ("enabled", .bool reporting.enabled)]

def toJson (config : Config) : Json :=
  let dealer := dealerDict config.dealer ++ [("timeout_sweep_ms", .ofNat config.sweepMilliseconds)]
  .dict [("dealer", .dict dealer), ("metrics", .dict config.reporting.dict),
    ("network", .dict config.network.dict), ("realm", .dict (identityDict config.identity))]

def standsAlone (c : Char) : Bool :=
  Yaml.isAdmitted c && !Yaml.isBreak c && c != '\u0085' && c != Yaml.byteOrderMark

def writtenChar (c : Char) : List Char :=
  if standsAlone c then [c]
  else
    let digits := Json.hexDigits c.toNat
    '\\' :: 'u' :: List.replicate (4 - digits.length) '0' ++ digits

def text (config : Config) : String :=
  String.ofList (config.toJson.chars.flatMap writtenChar)

structure File where
  path : String
  content : Except String String

def File.read (file : File) : Except Fault Config :=
  match file.content with
  | .error reason => .error (.unreadable file.path reason)
  | .ok content =>
    match ofText content with
    | none => .error (.malformed file.path)
    | some config => .ok config

def load (file : Option File) (environment : Environment) : Except Fault Config := do
  let config ← match file with
    | none => .ok {}
    | some file => file.read
  (config.override environment).validate

def loadOrDefault (file : Option File) (environment : Environment) : Except Fault Config :=
  match file, load file environment with
  | none, .error _ => .ok {}
  | _, result => result

end CallRouter.Config
