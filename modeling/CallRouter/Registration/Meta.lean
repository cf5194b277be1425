import CallRouter.Options
import CallRouter.Registration.Directory

/-!
Procedures that tell about the registrations and that the dealer answers itself. Each takes its
arguments in one or more ways; the way with the best score is taken.
-/

namespace CallRouter.Registration

inductive Parameter where
  | uri
  | id
  | options
  deriving DecidableEq, Repr

namespace Parameter

def accepts : Parameter → Json → Bool
  | uri, .text value => Uri.isValid value
  | id, value => value.nat?.any isValidId
  | options, .dict _ => true
  | _, _ => false

def unmet : List Parameter → List Json → Nat
  | [], _ => 0
  | _ :: parameters, [] => unmet parameters [] + 1
  | parameter :: parameters, arg :: args =>
    unmet parameters args + (if parameter.accepts arg then 0 else 1)

/--
How well arguments fit parameters: below zero if some parameter is not met, else above zero, more
for each parameter and less for each surplus argument.
-/
def score (parameters : List Parameter) (args : List Json) : Int :=
  let unmet := unmet parameters args
  if 0 < unmet then -(unmet : Int)
  else
    let value : Int := 1 + 2 * parameters.length - (args.length - parameters.length : Nat)
    if value < 1 then 1 else value

end Parameter

inductive MetaProcedure where
  | list
  | lookup
  | match_
  | get
  | listCallees
  | countCallees
  deriving DecidableEq, Repr

namespace MetaProcedure

def all : List MetaProcedure := [list, lookup, match_, get, listCallees, countCallees]

def uri : MetaProcedure → String
  | list => "wamp.registration.list"
  | lookup => "wamp.registration.lookup"
  | match_ => "wamp.registration.match"
  | get => "wamp.registration.get"
  | listCallees => "wamp.registration.list_callees"
  | countCallees => "wamp.registration.count_callees"

def ofUri? (text : String) : Option MetaProcedure := all.find? fun procedure => procedure.uri == text

def overloads : MetaProcedure → List (List Parameter)
  | list => [[]]
  | lookup | match_ => [[.uri], [.uri, .options]]
  | get | listCallees | countCallees => [[.id]]

/-- The overload of the best score above zero; of equal ones the last. -/
def best (args : List Json) : List (List Parameter) → Option (List Parameter)
  | [] => none
  | parameters :: rest =>
    match best args rest with
    | some other =>
      if Parameter.score other args < Parameter.score parameters args then some parameters
      else some other
    | none => if 0 < Parameter.score parameters args then some parameters else none

def resolve (procedure : MetaProcedure) (args : List Json) : Option (List Parameter) :=
  best args procedure.overloads

def ids (values : List Nat) : Json := .list (values.map .ofNat)

def entryOrNull (entry : Option Entry) : Json :=
  match entry with
  | some entry => .ofNat entry.id
  | none => .null

def named (directory : Directory) (args : List Json) : Except Refusal Entry :=
  let id := (args.head? >>= Json.nat?).getD 0
  match directory.entry? id with
  | some entry => .ok entry
  | none => .error (.noSuchRegistration id)

def policyOf (parameters : List Parameter) (args : List Json) : Except Refusal MatchPolicy :=
  if parameters.length = 2 then
    let options := (args[1]? >>= Json.dict?).getD []
    match options.choice MatchPolicy.ofName Dict.Key.match_ with
    | .ok choice => .ok (choice.getD .exact)
    | .error unknown => .error (.ofUnknownOption unknown)
  else .ok .exact

def answer (procedure : MetaProcedure) (directory : Directory) (args : List Json) :
    Except Refusal Json :=
  match procedure.resolve args with
  | none => .error (.invalidArgument (procedure.uri ++ " does not accept these arguments"))
  | some parameters => do
    let uri := (args.head? >>= Json.text?).getD ""
    match procedure with
    | list =>
      return .dict [("exact", ids (directory.entryIds .exact)),
        ("prefix", ids (directory.entryIds .byPrefix)),
        ("wildcard", ids (directory.entryIds .wildcard))]
    | lookup => return entryOrNull (directory.entryOf? ⟨← policyOf parameters args, uri⟩)
    | match_ => return entryOrNull (directory.lookup uri)
    | get => return (← named directory args).details.json
    | listCallees =>
      return ids ((directory.members (← named directory args)).map (·.session))
    | countCallees => return .ofNat (← named directory args).members.length

end MetaProcedure

inductive Destination where
  | meta_ (procedure : MetaProcedure)
  | entry (entry : Entry)
  deriving DecidableEq, Repr

def Directory.resolve (directory : Directory) (uri : String) (metaApi : Bool) :
    Option Destination :=
  match if metaApi then MetaProcedure.ofUri? uri else none with
  | some procedure => some (.meta_ procedure)
  | none => (directory.lookup uri).map .entry

end CallRouter.Registration
