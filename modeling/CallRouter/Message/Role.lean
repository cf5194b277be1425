namespace CallRouter

inductive Role where
  | caller
  | callee
  | publisher
  | subscriber
  | dealer
  | broker
  deriving DecidableEq, Repr, Inhabited

namespace Role

def all : List Role := [caller, callee, publisher, subscriber, dealer, broker]

def name : Role → String
  | caller => "caller"
  | callee => "callee"
  | publisher => "publisher"
  | subscriber => "subscriber"
  | dealer => "dealer"
  | broker => "broker"

def title : Role → String
  | caller => "Caller"
  | callee => "Callee"
  | publisher => "Publisher"
  | subscriber => "Subscriber"
  | dealer => "Dealer"
  | broker => "Broker"

def ofName? (text : String) : Option Role := all.find? fun role => role.name == text

def isRouter (role : Role) : Bool := role == dealer || role == broker

end Role

namespace Feature

def progressiveCallResults : String := "progressive_call_results"
def callCanceling : String := "call_canceling"
def callTimeout : String := "call_timeout"
def sharedRegistration : String := "shared_registration"
def patternBasedRegistration : String := "pattern_based_registration"
def callerIdentification : String := "caller_identification"
def registrationMetaApi : String := "registration_meta_api"

end Feature

end CallRouter
