import CallRouter.Keyed
import CallRouter.Pattern
import CallRouter.Refusal
import CallRouter.Registration.Event
import CallRouter.Time

/-!
The directory of registrations. Registrations of one pattern form an entry, which lists them in the
order in which they were made and, if they are invoked in turn, remembers whose turn it is.
-/

namespace CallRouter

structure Registration where
  id : Nat
  session : Nat
  entry : Nat
  pattern : Pattern
  options : Dict
  deriving DecidableEq, Repr

namespace Registration

structure Entry where
  id : Nat
  pattern : Pattern
  invoke : InvocationPolicy
  created : Time
  members : List Nat := []
  cursor : Nat := 0
  deriving DecidableEq, Repr

namespace Entry

def details (entry : Entry) : Details :=
  ⟨entry.id, entry.created.text, entry.pattern.uri, entry.pattern.policy, entry.invoke⟩

def add (entry : Entry) (registration : Nat) : Entry :=
  { entry with members := entry.members ++ [registration] }

/-- Takes a registration out and leaves the turn with the one that had it, or with its successor. -/
def remove (entry : Entry) (registration : Nat) : Entry :=
  let place := entry.members.idxOf registration
  { entry with
    members := entry.members.erase registration
    cursor := if place < entry.cursor then entry.cursor - 1 else entry.cursor }

def place (entry : Entry) (draw : Nat) : Nat :=
  match entry.invoke with
  | .single | .first => 0
  | .last => entry.members.length - 1
  | .random => draw % entry.members.length
  | .roundRobin => entry.cursor % entry.members.length

def pick? (entry : Entry) (draw : Nat) : Option Nat := entry.members[entry.place draw]?

def advance (entry : Entry) : Entry :=
  match entry.invoke with
  | .roundRobin =>
    { entry with cursor := (entry.cursor % entry.members.length + 1) % entry.members.length }
  | _ => entry

end Entry

/--
The entry that each pattern stands for, the entries and the registrations by their ids, and ids for
new ones.
-/
structure Directory where
  names : Keyed Pattern Nat := Keyed.empty
  entries : Keyed Nat Entry := Keyed.empty
  registrations : Keyed Nat Registration := Keyed.empty
  ids : Allocator := {}

namespace Directory

instance : Inhabited Directory := ⟨{}⟩

def size (directory : Directory) : Nat := directory.registrations.size

def registration? (directory : Directory) (id : Nat) : Option Registration :=
  directory.registrations.find? id

def entry? (directory : Directory) (id : Nat) : Option Entry := directory.entries.find? id

def entryOf? (directory : Directory) (pattern : Pattern) : Option Entry :=
  directory.names.find? pattern >>= directory.entry?

def entryIds (directory : Directory) (policy : MatchPolicy) : List Nat :=
  (directory.names.filter fun pattern _ => pattern.policy == policy).values.mergeSort
    fun a b => decide (a ≤ b)

def members (directory : Directory) (entry : Entry) : List Registration :=
  entry.members.filterMap directory.registration?

def isInUse (directory : Directory) (id : Nat) : Bool :=
  directory.registrations.contains id || directory.entries.contains id

def allocate (directory : Directory) : Nat × Directory :=
  let (id, ids) := directory.ids.allocate directory.isInUse
  (id, { directory with ids })

def updateEntry (directory : Directory) (id : Nat) (change : Entry → Entry) : Directory :=
  { directory with
    entries := directory.entries.map fun other entry => if other = id then change entry else entry }

def join (directory : Directory) (session : Nat) (entry : Entry) (options : Dict) :
    Registration × Directory :=
  let (id, directory) := directory.allocate
  let registration : Registration := ⟨id, session, entry.id, entry.pattern, options⟩
  let directory := directory.updateEntry entry.id (·.add id)
  (registration, { directory with registrations := directory.registrations.insert id registration })

def drop (directory : Directory) (pattern : Pattern) (id : Nat) : Directory :=
  { directory with
    names :=
      if directory.names.find? pattern = some id then directory.names.erase pattern
      else directory.names
    entries := directory.entries.erase id }

/--
Registers a session under a pattern. A pattern that is registered already can be shared if both its
entry and the new registration ask for one and the same policy of sharing.
-/
def register (directory : Directory) (now : Time) (session : Nat) (pattern : Pattern)
    (invoke : InvocationPolicy) (options : Dict) :
    Except Refusal (Registration × List Event × Directory) :=
  match directory.entryOf? pattern with
  | some entry =>
    if entry.invoke.isShared && entry.invoke == invoke then
      let (registration, directory) := directory.join session entry options
      .ok (registration, [{ kind := .register, session, entry := entry.id }], directory)
    else .error (.procedureAlreadyExists pattern.uri)
  | none =>
    let (id, directory) := directory.allocate
    let entry : Entry := { id, pattern, invoke, created := now }
    let directory := { directory with
      names := directory.names.insert pattern id
      entries := directory.entries.insert id entry }
    let (registration, directory) := directory.join session entry options
    .ok (registration,
      [{ kind := .create, session, entry := id, details := some entry.details },
        { kind := .register, session, entry := id }], directory)

def unregister (directory : Directory) (id : Nat) :
    Except Refusal (Registration × List Event × Directory) :=
  match directory.registration? id with
  | none => .error (.noSuchRegistration id)
  | some registration =>
    let gone : Event :=
      { kind := .unregister, session := registration.session, entry := registration.entry }
    let directory := { directory.updateEntry registration.entry (·.remove id) with
      registrations := directory.registrations.erase id }
    if (directory.entry? registration.entry).all fun entry => entry.members.isEmpty then
      .ok (registration, [gone, { gone with kind := .delete }],
        directory.drop registration.pattern registration.entry)
    else .ok (registration, [gone], directory)

def ownedBy (directory : Directory) (session : Nat) : List Nat :=
  (directory.registrations.filter fun _ registration => registration.session == session).keys

def unregisterAll : List Nat → Directory → List Event × Directory
  | [], directory => ([], directory)
  | id :: ids, directory =>
    match directory.unregister id with
    | .error _ => unregisterAll ids directory
    | .ok (_, events, directory) =>
      let (later, directory) := unregisterAll ids directory
      (events ++ later, directory)

def closeSession (directory : Directory) (session : Nat) : List Event × Directory :=
  unregisterAll (directory.ownedBy session) directory

/-- The entry whose pattern is preferred to all others; of equal ones the first. -/
def narrowest : List Entry → Option Entry
  | [] => none
  | entry :: rest =>
    match narrowest rest with
    | none => some entry
    | some other => if other.pattern.narrower entry.pattern then some other else some entry

def lookup (directory : Directory) (uri : String) : Option Entry :=
  narrowest ((directory.names.values.filterMap directory.entry?).filter fun entry =>
    entry.pattern.covers uri)

def select (directory : Directory) (entry : Entry) (draw : Nat) :
    Option Registration × Directory :=
  (entry.pick? draw >>= directory.registration?, directory.updateEntry entry.id (·.advance))

end Directory

end Registration

end CallRouter
