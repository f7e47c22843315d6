import Mathlib.Data.Finset.Basic

/-! How the programs get a socket from the addresses `getaddrinfo` found: the
loops over the list, with what every call on an entry returns, and what follows
them up to the first use of the descriptor. -/

set_option autoImplicit false

namespace CBasics.SocketSetup

/-- The descriptors open in the process, and what was done with them. -/
structure Sockets where
  openFds : Finset Int
  connected : Finset Int
  bound : Finset Int
  listening : Finset Int
  deriving DecidableEq

namespace Sockets

def socket (sockets : Sockets) (fd : Int) : Sockets :=
  { sockets with openFds := insert fd sockets.openFds }

def connect (sockets : Sockets) (fd : Int) : Sockets :=
  { sockets with connected := insert fd sockets.connected }

def bind (sockets : Sockets) (fd : Int) : Sockets :=
  { sockets with bound := insert fd sockets.bound }

def listen (sockets : Sockets) (fd : Int) : Sockets :=
  { sockets with listening := insert fd sockets.listening }

def close (sockets : Sockets) (fd : Int) : Sockets where
  openFds := sockets.openFds.erase fd
  connected := sockets.connected.erase fd
  bound := sockets.bound.erase fd
  listening := sockets.listening.erase fd

/-- `socket` returns -1 or a descriptor that is not open. -/
def MayOpen (sockets : Sockets) (result : Int) : Prop :=
  result = -1 ∨ 0 ≤ result ∧ result ∉ sockets.openFds

instance (sockets : Sockets) (result : Int) : Decidable (sockets.MayOpen result) :=
  inferInstanceAs (Decidable (_ ∨ _))

variable {sockets : Sockets} {fd : Int}

@[simp] theorem openFds_socket (sockets : Sockets) (fd : Int) :
    (sockets.socket fd).openFds = insert fd sockets.openFds := rfl

@[simp] theorem openFds_connect (sockets : Sockets) (fd : Int) :
    (sockets.connect fd).openFds = sockets.openFds := rfl

/-- Closing what was just made leaves nothing behind. -/
theorem openFds_close_socket (new : fd ∉ sockets.openFds) :
    ((sockets.socket fd).close fd).openFds = sockets.openFds :=
  Finset.erase_insert new

theorem MayOpen.new (mayOpen : sockets.MayOpen fd) (made : fd ≠ -1) :
    fd ∉ sockets.openFds := by
  rcases mayOpen with failed | ⟨-, new⟩
  · exact absurd failed made
  · exact new

theorem MayOpen.again (mayOpen : sockets.MayOpen fd) (made : fd ≠ -1) {Entry : Type}
    {entries : List Entry} {result : Entry → Int}
    (later : ∀ entry ∈ entries, sockets.MayOpen (result entry)) :
    ∀ entry ∈ entries, ((sockets.socket fd).close fd).MayOpen (result entry) := by
  intro entry member
  rw [MayOpen, openFds_close_socket (mayOpen.new made)]
  exact later entry member

end Sockets

/-- How a loop over the addresses ends: by `break` with the descriptor it has
made, with its pointer at the end of the list, or inside `exit`. -/
inductive Ending where
  | broke (fd : Int)
  | exhausted
  | exited
  deriving DecidableEq

/-- What a loop leaves: the number of entries it tried and what it has written
to the standard error output. -/
structure Left where
  ending : Ending
  sockets : Sockets
  tried : Nat
  errors : List String
  deriving DecidableEq

/-- One more entry was tried before. -/
def Left.after (left : Left) (errors : List String) : Left :=
  { left with tried := left.tried + 1, errors := errors ++ left.errors }

inductive Outcome where
  | uses (fd : Int)
  | stops (status : Int)
  deriving DecidableEq

structure Setup where
  outcome : Outcome
  sockets : Sockets
  tried : Nat
  errors : List String
  deriving DecidableEq

/-- The test for `NULL` behind the loop of a client. -/
def Left.test (left : Left) (report : String) (status : Int) : Setup :=
  match left.ending with
  | .broke fd => ⟨.uses fd, left.sockets, left.tried, left.errors⟩
  | _ => ⟨.stops status, left.sockets, left.tried, left.errors ++ [report]⟩

/-- What the calls of a client on one address return. -/
structure ClientEntry where
  socket : Int
  connect : Int
  deriving DecidableEq

/-- The loop of `telnetClient` and of `streamSocketClient`. -/
def addressLoop (socketError connectError : String) : List ClientEntry → Sockets → Left
  | [], sockets => ⟨.exhausted, sockets, 0, []⟩
  | entry :: rest, sockets =>
      if entry.socket = -1 then
        (addressLoop socketError connectError rest sockets).after [socketError]
      else
        let opened := sockets.socket entry.socket
        if entry.connect = -1 then
          -- Nothing continues the loop here, and it breaks with the descriptor just closed.
          ⟨.broke entry.socket, opened.close entry.socket, 1, [connectError]⟩
        else ⟨.broke entry.socket, opened.connect entry.socket, 1, []⟩

def telnetClient (entries : List ClientEntry) (sockets : Sockets) : Setup :=
  (addressLoop "Error creating client socket\n" "Error connecting client\n" entries sockets).test
    "Client failed to connect\n" 1

def streamSocketClient (entries : List ClientEntry) (sockets : Sockets) : Setup :=
  (addressLoop "Error creating client socket" "Error connecting client" entries sockets).test
    "Client failed to connect" 2

/-- The loop of `main2`, which goes on to the next address. -/
def main2Loop : List ClientEntry → Sockets → Left
  | [], sockets => ⟨.exhausted, sockets, 0, []⟩
  | entry :: rest, sockets =>
      if entry.socket = -1 then
        (main2Loop rest sockets).after
          ["Couldn't make socket and get file descriptor from kernel\n"]
      else
        let opened := sockets.socket entry.socket
        if entry.connect = -1 then
          (main2Loop rest (opened.close entry.socket)).after ["Connection failed"]
        else ⟨.broke entry.socket, opened.connect entry.socket, 1, []⟩

def main2 (entries : List ClientEntry) (sockets : Sockets) : Setup :=
  (main2Loop entries sockets).test "Error in creating socket\n" 1

structure ListenerEntry where
  socket : Int
  setsockopt : Int
  bind : Int
  deriving DecidableEq

/-- The loop of `get_listener_socketFd`, which ends the process where the option
cannot be set. -/
def listenerFdLoop : List ListenerEntry → Sockets → Left
  | [], sockets => ⟨.exhausted, sockets, 0, []⟩
  | entry :: rest, sockets =>
      if entry.socket < 0 then (listenerFdLoop rest sockets).after []
      else
        let opened := sockets.socket entry.socket
        if entry.setsockopt ≠ 0 then ⟨.exited, opened, 1, []⟩
        else if entry.bind < 0 then
          (listenerFdLoop rest (opened.close entry.socket)).after []
        else ⟨.broke entry.socket, opened.bind entry.socket, 1, []⟩

/-- `get_listener_socketFd` once `getaddrinfo` has succeeded. -/
def getListenerSocketFd (serverInfo : List ListenerEntry) (listen : Int) (sockets : Sockets) :
    Setup :=
  if serverInfo = [] then ⟨.stops 1, sockets, 0, []⟩
  else
    let left := listenerFdLoop serverInfo sockets
    match left.ending with
    | .exited => ⟨.stops 1, left.sockets, left.tried, left.errors⟩
    | .exhausted => ⟨.stops 1, left.sockets, left.tried, left.errors ++ ["Error on bind\n"]⟩
    | .broke listenerFd =>
        if listen ≠ 0 then ⟨.stops 1, left.sockets, left.tried, left.errors⟩
        else ⟨.uses listenerFd, left.sockets.listen listenerFd, left.tried, left.errors⟩

/-- The loop of `get_listener_socket`, which does not look at what `setsockopt`
returns. -/
def listenerLoop : List ListenerEntry → Sockets → Left
  | [], sockets => ⟨.exhausted, sockets, 0, []⟩
  | entry :: rest, sockets =>
      if entry.socket < 0 then (listenerLoop rest sockets).after ["socket"]
      else
        let opened := sockets.socket entry.socket
        if entry.bind < 0 then
          (listenerLoop rest (opened.close entry.socket)).after ["bind"]
        else ⟨.broke entry.socket, opened.bind entry.socket, 1, []⟩

/-- `get_listener_socket` once `getaddrinfo` has succeeded. -/
def getListenerSocket (results : List ListenerEntry) (listen : Int) (sockets : Sockets) : Setup :=
  let left := listenerLoop results sockets
  match left.ending with
  | .broke listenerFd =>
      if listen < 0 then ⟨.stops 1, left.sockets, left.tried, left.errors ++ ["listen"]⟩
      else ⟨.uses listenerFd, left.sockets.listen listenerFd, left.tried, left.errors⟩
  | _ => ⟨.stops 1, left.sockets, left.tried, left.errors ++ ["bind"]⟩

/-- The loop of `server`, which closes no descriptor. -/
def serverLoop : List ListenerEntry → Sockets → Left
  | [], sockets => ⟨.exhausted, sockets, 0, []⟩
  | entry :: rest, sockets =>
      if entry.socket = -1 then
        (serverLoop rest sockets).after ["Server Error getting socket file descriptor"]
      else
        let opened := sockets.socket entry.socket
        if entry.setsockopt = -1 then ⟨.exited, opened, 1, ["Error setting socket options"]⟩
        else if entry.bind = -1 then (serverLoop rest opened).after ["Error binding socket"]
        else ⟨.broke entry.socket, opened.bind entry.socket, 1, []⟩

/-- `server` from the answer of `getaddrinfo` to its call of `sigaction`. -/
def server (serverInfo : List ListenerEntry) (listen : Int) (sockets : Sockets) : Setup :=
  let left := serverLoop serverInfo sockets
  match left.ending with
  | .exited => ⟨.stops 1, left.sockets, left.tried, left.errors⟩
  | .exhausted => ⟨.stops 1, left.sockets, left.tried, left.errors ++ ["Server failed to bind"]⟩
  | .broke sockfd =>
      if listen = -1 then
        ⟨.stops 1, left.sockets, left.tried, left.errors ++ ["Error on listen"]⟩
      else ⟨.uses sockfd, left.sockets.listen sockfd, left.tried, left.errors⟩

/-- The loop of `get_listener`, where `listener` gets the result of the comparison: the
descriptor that `socket` has made is lost. -/
def rawLoop : List ListenerEntry → Sockets → Left
  | [], sockets => ⟨.exhausted, sockets, 0, []⟩
  | entry :: rest, sockets =>
      let opened := if entry.socket < 0 then sockets else sockets.socket entry.socket
      let listener : Int := if entry.socket < 0 then 1 else 0
      if listener ≠ 0 then (rawLoop rest opened).after ["socket"]
      else if entry.bind < 0 then (rawLoop rest opened).after ["bind"]
      else ⟨.broke listener, opened.bind listener, 1, []⟩

/-- `get_listener` once `getaddrinfo` has succeeded. -/
def getListener (results : List ListenerEntry) (listen : Int) (sockets : Sockets) : Setup :=
  let left := rawLoop results sockets
  match left.ending with
  | .broke listener =>
      if listen < 0 then ⟨.stops 1, left.sockets, left.tried, left.errors ++ ["listen"]⟩
      else ⟨.uses listener, left.sockets.listen listener, left.tried, left.errors⟩
  | _ => ⟨.stops 1, left.sockets, left.tried, left.errors ++ ["bind"]⟩

/-- The `main` of the raw server up to its test of the listener. -/
def rawMain (results : List ListenerEntry) (listen : Int) (sockets : Sockets) : Setup :=
  let setup := getListener results listen sockets
  match setup.outcome with
  | .uses listener => if listener ≤ 0 then { setup with outcome := .stops 1 } else setup
  | .stops _ => setup

/-- The loop of the poll server's `get_listener_socket`, which says nothing of what fails. -/
def pollListenerLoop : List ListenerEntry → Sockets → Left
  | [], sockets => ⟨.exhausted, sockets, 0, []⟩
  | entry :: rest, sockets =>
      if entry.socket < 0 then (pollListenerLoop rest sockets).after []
      else
        let opened := sockets.socket entry.socket
        if entry.bind < 0 then (pollListenerLoop rest (opened.close entry.socket)).after []
        else ⟨.broke entry.socket, opened.bind entry.socket, 1, []⟩

/-- `listen` fails on a descriptor that is not open. -/
def listenAnswer (sockets : Sockets) (listener listen : Int) : Int :=
  if listener ∈ sockets.openFds then listen else -1

/-- The call of `listen` and the test behind it. -/
def listenOn (left : Left) (listener listen : Int) : Setup :=
  if listenAnswer left.sockets listener listen ≠ 0 then
    ⟨.stops 1, left.sockets, left.tried,
      left.errors ++ ["Error on call to listen() with fd " ++ toString listener]⟩
  else ⟨.uses listener, left.sockets.listen listener, left.tried, left.errors⟩

/-- What the variable `listener` has behind the loop; nothing was ever assigned to it where
the list is empty. -/
def lastListener (addressInfo : List ListenerEntry) : Int :=
  (addressInfo.getLast?.map (·.socket)).getD 0

/-- `close(EXIT_FAILURE)` closes descriptor 1 and returns. -/
def Left.failBind (left : Left) : Left :=
  { left with
    sockets := left.sockets.close 1
    errors := left.errors ++ ["Error occurred during bind process"] }

/-- The poll server's `get_listener_socket` once `getaddrinfo` has succeeded. -/
def pollListenerSocket (addressInfo : List ListenerEntry) (listen : Int) (sockets : Sockets) :
    Setup :=
  let left := pollListenerLoop addressInfo sockets
  match left.ending with
  | .broke listener => listenOn left listener listen
  | _ => listenOn left.failBind (lastListener addressInfo) listen

end CBasics.SocketSetup
