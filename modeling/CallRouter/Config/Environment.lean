import CallRouter.Config.Basic
import CallRouter.Text.Lowercase

namespace CallRouter

abbrev Environment := String → Option String

namespace Environment

def setting {α : Type} (environment : Environment) (name : String) (read : String → Option α)
    (present : α) : α :=
  ((environment name).bind read).getD present

def readSwitch (text : String) : Option Bool :=
  some (text == "1" || Text.lowercase text == "true")

end Environment

def Config.override (config : Config) (environment : Environment) : Config :=
  let { network, identity, dealer, sweepMilliseconds, reporting } := config
  { network :=
      { bind := environment.setting "WAMPD_BIND" Network.Address.ofText? network.bind
        idleSeconds := environment.setting "WAMPD_IDLE_TIMEOUT" Text.word? network.idleSeconds
        maxConnections :=
          environment.setting "WAMPD_MAX_CONNECTIONS" Text.word? network.maxConnections
        mode := environment.setting "WAMPD_WIRE_MODE" (Wire.Mode.ofName · |>.toOption)
          network.mode }
    identity := { identity with realm := environment.setting "WAMPD_REALM" some identity.realm }
    dealer :=
      { dealer with
        defaultCancelMode := environment.setting "WAMPD_CANCEL_MODE"
          (CancelMode.ofName · |>.toOption) dealer.defaultCancelMode }
    sweepMilliseconds :=
      environment.setting "WAMPD_TIMEOUT_SWEEP_MS" Text.word? sweepMilliseconds
    reporting :=
      { enabled :=
          environment.setting "WAMPD_METRICS_ENABLED" Environment.readSwitch reporting.enabled
        bind := environment.setting "WAMPD_METRICS_BIND" Network.Address.ofText? reporting.bind } }

end CallRouter
