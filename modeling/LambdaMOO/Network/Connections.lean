import LambdaMOO.Db.Text
import LambdaMOO.Numbers.CTypes
import LambdaMOO.Structures

/-!
# Connections

The connections of `server.c`: how they are made and given to players, how the code of the
database is told about them, and how the main loop gets rid of them. The code of the database
may run whenever a notifier is called. What it does then is an argument, and it may look at
everything that has happened so far.
-/

namespace LambdaMOO

variable {σ : Type}

/-- `shandle`. The network handle stands for the structure, too. -/
structure Shandle where
  nhandle : Nat
  connectionTime : Int
  lastActivityTime : Int
  player : Int
  listener : Int
  disconnectMe : Bool
  outbound : Bool
  binary : Bool
  printMessages : Bool
  deriving DecidableEq, Repr

/-- `slistener`, as far as its connections are concerned. -/
structure Slistener where
  oid : Int
  printMessages : Bool
  deriving DecidableEq, Repr

/-- The verbs that `call_notifier` is called for. -/
inductive Notifier where
  | userConnected
  | userCreated
  | userReconnected
  | userDisconnected
  | userClientDisconnected
  deriving DecidableEq, Repr

/-- The lines of the log that are about one connection. -/
inductive LogKind where
  | accept
  | connect
  | clientDisconnected
  | redirected (was : Nat)
  | created
  | connected
  | timeout
  | recycled
  | disconnected
  deriving DecidableEq, Repr

/-- What the server does that can be seen from outside. A notifier comes with the connections
that the code of the database finds when it runs. -/
inductive Output where
  | notifier (player handler : Int) (verb : Notifier) (handles : List Shandle)
  | line (nhandle : Nat) (text : String)
  | close (nhandle : Nat)
  | log (kind : LogKind) (player : Int) (nhandle : Nat)
  | emergency (player : Int) (line : String)
  deriving DecidableEq, Repr

/-- The value of a server option. Only the strings in a list count. -/
inductive OptionValue where
  | int (n : Int)
  | str (s : String)
  | list (vs : List (Option String))
  | other
  deriving DecidableEq, Repr

/-- What the server asks the database. -/
structure Directory where
  valid : Int → Bool
  getServerOption : Int → String → Option OptionValue

/-- The state of `server.c`. `checkpointedConnections` is `none` when it is not a list. -/
structure Server where
  allShandles : List Shandle
  nextUnconnectedPlayer : Int
  checkpointedConnections : Option (List (Int × Int))
  inEmergencyMode : Bool
  directory : Directory
  outputs : List Output

/-- What code of the database can do to the connections. `openConnection` is an
outbound connection that has been made, with the listener that it is to belong to. -/
inductive MooOp where
  | boot (player : Int)
  | openConnection (nhandle : Nat) (l : Option Slistener) (time : Int)
  | notify (player : Int) (line : String)
  | setBinary (player : Int) (binary : Bool)
  | database (directory : Directory)

namespace Server

/-- `SYSTEM_OBJECT`. -/
def systemObject : Int := 0

def put (os : List Output) (s : Server) : Server := { s with outputs := s.outputs ++ os }

/-- `find_shandle`. -/
def findShandle (player : Int) (s : Server) : Option Shandle :=
  s.allShandles.find? fun h => h.player = player

/-- The structure behind a network handle. -/
def shandle (nhandle : Nat) (s : Server) : Option Shandle :=
  s.allShandles.find? fun h => h.nhandle = nhandle

/-- An assignment to fields of a structure. -/
def modify (nhandle : Nat) (f : Shandle → Shandle) (s : Server) : Server :=
  { s with allShandles := s.allShandles.map fun h => if h.nhandle = nhandle then f h else h }

/-- `free_shandle`. -/
def freeShandle (nhandle : Nat) (s : Server) : Server :=
  { s with allShandles := s.allShandles.filter fun h => h.nhandle ≠ nhandle }

/-- `server_new_connection`. -/
def serverNewConnection (l : Option Slistener) (nhandle : Nat) (outbound : Bool) (time : Int)
    (s : Server) : Server :=
  let h : Shandle :=
    { nhandle
      connectionTime := 0
      lastActivityTime := time
      player := s.nextUnconnectedPlayer
      listener := (l.map Slistener.oid).getD systemObject
      disconnectMe := false
      outbound
      binary := false
      printMessages := (l.map Slistener.printMessages).getD !outbound }
  { s with
    allShandles := h :: s.allShandles
    nextUnconnectedPlayer := s.nextUnconnectedPlayer - 1 }.put
      [.log (if outbound then .connect else .accept) h.player nhandle]

/-- The network gives a connection no handle that is in use. -/
def openConnection (l : Option Slistener) (nhandle : Nat) (outbound : Bool) (time : Int) (s : Server) :
    Server :=
  if (s.shandle nhandle).isSome then s else s.serverNewConnection l nhandle outbound time

/-- `server_receive_line`, without the task. -/
def serverReceiveLine (nhandle : Nat) (time : Int) (s : Server) : Server :=
  s.modify nhandle fun h => { h with lastActivityTime := time }

/-- `boot_player`. -/
def bootPlayer (player : Int) (s : Server) : Server :=
  let s := match s.findShandle player with
    | some h => s.modify h.nhandle fun h => { h with disconnectMe := true }
    | none => s
  if s.inEmergencyMode then
    { s with checkpointedConnections := s.checkpointedConnections.map fun l =>
        (l.reverse.eraseP fun c => c.1 = player).reverse }
  else s

/-- `notify`. -/
def notify (player : Int) (message : String) (s : Server) : Server :=
  match (s.findShandle player).filter (!·.disconnectMe) with
  | some h => s.put [.line h.nhandle message]
  | none => if s.inEmergencyMode then s.put [.emergency player message] else s

/-- `bf_set_connection_option` for the option `binary`. -/
def setBinary (player : Int) (binary : Bool) (s : Server) : Server :=
  match (s.findShandle player).filter (!·.disconnectMe) with
  | some h => s.modify h.nhandle fun h => { h with binary }
  | none => s

def applyOp (s : Server) : MooOp → Server
  | .boot player => s.bootPlayer player
  | .openConnection nhandle l time => s.openConnection l nhandle true time
  | .notify player line => s.notify player line
  | .setBinary player binary => s.setBinary player binary
  | .database directory => { s with directory }

/-- A task runs. -/
def runOps (ops : List MooOp) (s : Server) : Server := ops.foldl applyOp s

/-- `send_message`. -/
def sendMessage (listener : Int) (nhandle : Nat) (msgName : String) (default : List String)
    (s : Server) : Server :=
  let lines := match s.directory.getServerOption listener msgName with
    | some (.str msg) => [msg]
    | some (.list vs) => vs.reduceOption
    | some _ => []
    | none => default
  s.put (lines.map (.line nhandle))

/-- `if (h->print_messages) send_message(...)`. -/
def sendMessageIf (printMessages : Bool) (listener : Int) (nhandle : Nat) (msgName : String)
    (default : List String) (s : Server) : Server :=
  if printMessages then s.sendMessage listener nhandle msgName default else s

end Server

/-- The code of the database, by what has happened up to the call. -/
abbrev Reaction := List Output → List MooOp

namespace Server

section

variable (react : Reaction)

/-- `call_notifier`. -/
def callNotifier (player handler : Int) (verb : Notifier) (s : Server) : Server :=
  let s := s.put [.notifier player handler verb s.allShandles]
  s.runOps (react s.outputs)

/-- `server_close`. -/
def serverClose (nhandle : Nat) (s : Server) : Server :=
  match s.shandle nhandle with
  | none => s
  | some h =>
    let s := s.put [.log .clientDisconnected h.player nhandle]
    let s := s.modify nhandle fun h => { h with disconnectMe := true }
    let s := s.callNotifier react h.player h.listener .userClientDisconnected
    s.freeShandle nhandle

/-- `player_connected`. -/
def playerConnected (oldId newId : Int) (isNewlyCreated : Bool) (time : Int) (s : Server) :
    Except String Server :=
  let existing := s.findShandle newId
  match s.findShandle oldId with
  | none => .error "Non-existent shandle connected"
  | some new =>
    let s := s.modify new.nhandle fun h => { h with player := newId, connectionTime := time }
    match existing with
    | some existing =>
      let s := s.put [.log (.redirected existing.nhandle) newId new.nhandle]
      let s := s.sendMessageIf existing.printMessages existing.listener existing.nhandle
        "redirect_from_msg" ["*** Redirecting connection to new port ***"]
      let s := s.sendMessageIf new.printMessages new.listener new.nhandle
        "redirect_to_msg" ["*** Redirecting old connection to this port ***"]
      let s := (s.put [.close existing.nhandle]).freeShandle existing.nhandle
      if existing.listener = new.listener then
        .ok (s.callNotifier react newId new.listener .userReconnected)
      else
        let s := s.modify new.nhandle fun h => { h with disconnectMe := true }
        let s := s.callNotifier react newId existing.listener .userClientDisconnected
        let s := s.modify new.nhandle fun h => { h with disconnectMe := false }
        .ok (s.callNotifier react newId new.listener .userConnected)
    | none =>
      let s := s.put [.log (if isNewlyCreated then .created else .connected) newId new.nhandle]
      let s := if isNewlyCreated then
          s.sendMessageIf new.printMessages new.listener new.nhandle "create_msg"
            ["*** Created ***"]
        else
          s.sendMessageIf new.printMessages new.listener new.nhandle "connect_msg"
            ["*** Connected ***"]
      .ok (s.callNotifier react newId new.listener
        (if isNewlyCreated then .userCreated else .userConnected))

/-- `DEFAULT_CONNECT_TIMEOUT`. -/
def defaultConnectTimeout : Int := 300

/-- The test of the main loop for a connection that has not logged in in time. -/
def isTimedOut (directory : Directory) (now : Int) (h : Shandle) : Bool :=
  !h.outbound && h.connectionTime == 0 &&
    match directory.getServerOption h.listener "connect_timeout" with
    | some (.int n) => decide (0 < n) && decide (n < now - h.lastActivityTime)
    | some _ => false
    | none => decide (defaultConnectTimeout < now - h.lastActivityTime)

/-- The body of the loop that gets rid of connections. -/
def sweepOne (now : Int) (s : Server) (nhandle : Nat) : Server :=
  match s.shandle nhandle with
  | none => s
  | some h =>
    let leave (kind : LogKind) (msgName : String) (default : List String) (s : Server) : Server :=
      let s := s.put [.log kind h.player nhandle]
      let s := s.sendMessageIf h.printMessages h.listener nhandle msgName default
      (s.put [.close nhandle]).freeShandle nhandle
    if isTimedOut s.directory now h then
      leave .timeout "timeout_msg" ["*** Timed-out waiting for login. ***"]
        (s.callNotifier react h.player h.listener .userDisconnected)
    else if h.connectionTime ≠ 0 ∧ ¬ s.directory.valid h.player then
      leave .recycled "recycle_msg" ["*** Recycled ***"] s
    else if h.disconnectMe then
      leave .disconnected "boot_msg" ["*** Disconnected ***"]
        (s.callNotifier react h.player h.listener .userDisconnected)
    else s

/-- The loop. New connections come in at the front, so `nexth` runs through the handles that
are there at the beginning. -/
def sweep (time : Int) (s : Server) : Server :=
  (s.allShandles.map Shandle.nhandle).foldl (sweepOne react (CType.toInt32 time)) s

end

end Server

/-- What happens to the connections once the main loop has been entered. -/
inductive ServerEvent where
  | accept (l : Option Slistener) (nhandle : Nat) (time : Int)
  | receive (nhandle : Nat) (time : Int)
  | clientClosed (nhandle : Nat)
  | task (ops : List MooOp)
  | login (oldId newId : Int) (isNewlyCreated : Bool) (time : Int)
  | sweep (time : Int)

namespace Server

section

variable (react : Reaction)

/-- `do_login_task` comes to `player_connected` for a connection that is still open and has not
logged in, with a valid player. No clock says 0. -/
def CanLogin (oldId newId time : Int) (s : Server) : Prop :=
  oldId < 0 ∧ (s.findShandle oldId).isSome ∧ 0 ≤ newId ∧ time ≠ 0

instance (oldId newId time : Int) (s : Server) : Decidable (s.CanLogin oldId newId time) :=
  inferInstanceAs (Decidable (_ ∧ _))

def step (s : Server) : ServerEvent → Except String Server
  | .accept l nhandle time => .ok (s.openConnection l nhandle false time)
  | .receive nhandle time => .ok (s.serverReceiveLine nhandle time)
  | .clientClosed nhandle => .ok (s.serverClose react nhandle)
  | .task ops => .ok (s.runOps ops)
  | .login oldId newId isNewlyCreated time =>
    if s.CanLogin oldId newId time then s.playerConnected react oldId newId isNewlyCreated time
    else .ok s
  | .sweep time => .ok (s.sweep react time)

/-- The beginning of `main_loop`: the connections of the last checkpoint are gone. -/
def closeCheckpointed (s : Server) : Server :=
  { (s.checkpointedConnections.getD []).foldl
      (fun s c => s.callNotifier react c.1 c.2 .userDisconnected) s with
    checkpointedConnections := none }

/-- `main`: a database has been loaded. -/
def start (checkpointed : Option (List (Int × Int))) (directory : Directory) : Server where
  allShandles := []
  nextUnconnectedPlayer := nothing - 1
  checkpointedConnections := checkpointed
  inEmergencyMode := true
  directory
  outputs := []

/-- `main`: `emergency` is what is done in emergency mode, then the main loop is entered. -/
def launch (checkpointed : Option (List (Int × Int))) (directory : Directory)
    (emergency : List MooOp) : Server :=
  { (start checkpointed directory).runOps emergency with
    inEmergencyMode := false }.closeCheckpointed react

/-- The main loop from there. -/
def run (s : Server) (events : List ServerEvent) : Except String Server :=
  events.foldlM (step react) s

end

/-! ### What the code of the database can ask -/

/-- `bf_connected_players`. -/
def connectedPlayers (showAll : Bool) (s : Server) : List Int :=
  let checkpointed := if s.inEmergencyMode then s.checkpointedConnections.getD [] else []
  (checkpointed.filter fun c => showAll || !decide (c.1 < 0)).map Prod.fst ++
    (s.allShandles.filter fun h => (showAll || h.connectionTime != 0) && !h.disconnectMe).map
      Shandle.player

/-- `bf_connected_seconds`; `none` is `E_INVARG`. -/
def connectedSeconds (player time : Int) (s : Server) : Option Int :=
  let num := match s.findShandle player with
    | some h => if h.connectionTime ≠ 0 ∧ !h.disconnectMe then time - h.connectionTime else -1
    | none => -1
  if num < 0 then none else some num

/-- `bf_idle_seconds`; `none` is `E_INVARG`. -/
def idleSeconds (player time : Int) (s : Server) : Option Int :=
  let num := match s.findShandle player with
    | some h => if h.disconnectMe then -1 else time - h.lastActivityTime
    | none => -1
  if num < 0 then none else some num

/-- The numbers that `write_active_connections` writes: how many connections there are, and the
player and the listener of each. Behind the end of the list there is nothing to be read. -/
def activeConnections (s : Server) : Option (Nat × List (Int × Int)) :=
  let count := (s.checkpointedConnections.getD []).length + s.allShandles.length
  let checkpointed := match s.checkpointedConnections with
    | some l => (List.range count).mapM fun i => l[i]?
    | none => some []
  checkpointed.map fun l => (count, l ++ s.allShandles.map fun h => (h.player, h.listener))

/-- `write_active_connections`. -/
def writeActiveConnections (s : Server) : Option (List Char) :=
  s.activeConnections.map fun (count, l) =>
    decimal count ++ " active connections with listeners\n".toList ++
      l.flatMap fun c => decimal c.1 ++ ' ' :: decimal c.2 ++ ['\n']

end Server

/-- The format of the first line that `read_active_connections` reads. -/
def activeConnectionsFormat : List Fmt :=
  .opt :: .num .int :: Fmt.text " active connections" ++ .opt :: Fmt.text " with listeners"

/-- A connection and its listener. -/
def readConnection : Reader σ (Int × Int) := do
  match ← dbioScxnf [.num .num, .space, .num .num] with
  | (_, [.num who, .num listener]) => pure (who, listener)
  | _ => Reader.lift none

/-- `read_active_connections`: the new value of `checkpointed_connections`. -/
def readActiveConnections : Reader σ (Option (List (Int × Int))) := do
  match ← dbioScxnf activeConnectionsFormat with
  | (1, _) => pure none
  | (2, [.num count]) => do
    let l ← Reader.times (dbioReadInteger .num) count.toNat
    pure (some (l.map fun who => (who, Server.systemObject)))
  | (_, [.num count]) => do
    let l ← Reader.times readConnection count.toNat
    pure (some l)
  | _ => Reader.lift none

end LambdaMOO
