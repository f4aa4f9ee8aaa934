/-
  BrokerLoad/Main.lean
  ====================
  The command line.  The program is told by the name it is called by, or else by
  its first word.  Everything it decides is decided by `CommandLine` and `Engine`;
  here octets are carried to and from a socket, the clock is read, and an
  interrupt is noticed.
-/
import Std.Async.Signal
import Std.Async.TCP
import BrokerLoad.CommandLine
import BrokerLoad.Diagnostic.Filter
import BrokerLoad.Engine

open Std.Async

namespace BrokerLoad.Main

structure Wiring where
  socket : Option TCP.Socket.Client := none
  connecting : Option (AsyncTask Unit) := none
  receiving : Option (AsyncTask (Option ByteArray)) := none

/-- What a finished task came to; nothing, if it is not finished or there is none. -/
def finished? {α : Type} (task : Option (AsyncTask α)) : IO (Option (Except IO.Error α)) := do
  match task with
  | none => return none
  | some task =>
    if ← IO.hasFinished task then return some task.get else return none

def octetsOf (bytes : ByteArray) : Octets := bytes.data.toList

def bytesOf (octets : Octets) : ByteArray := ⟨octets.toArray⟩

/-- Sends octets; a failure shows when the next piece is received. -/
def transmit (wiring : Wiring) (octets : Octets) : IO Unit := do
  match wiring.socket, octets with
  | some socket, _ :: _ =>
    try (socket.send (bytesOf octets)).block catch _ => return ()
  | _, _ => return ()

def listen (socket : TCP.Socket.Client) : IO (AsyncTask (Option ByteArray)) :=
  (socket.recv? 65536).toIO

/-- Carries what happened on the socket since the last look to the client. -/
def look (options : Endpoint.Options) (wiring : Wiring) (client : ClientEngine) :
    IO (Wiring × ClientEngine) := do
  match ← finished? wiring.connecting with
  | some (.ok ()) =>
    let (client, octets) := client.connected options
    let receiving ← wiring.socket.mapM listen
    let wiring := { wiring with connecting := none, receiving }
    transmit wiring octets
    return (wiring, client)
  | some (.error _) => return ({}, client.unreachable)
  | none =>
    match ← finished? wiring.receiving with
    | some (.ok (some bytes)) =>
      let (client, octets) := client.absorb (client.connection.receive (octetsOf bytes))
      transmit wiring octets
      if client.connection.stage == .lost then return ({}, client)
      else return ({ wiring with receiving := ← wiring.socket.mapM listen }, client)
    | some _ => return ({}, (client.absorb client.connection.hangUp).1)
    | none =>
      if client.wantsConnection && wiring.connecting.isNone then
        let socket ← TCP.Socket.Client.mk
        let address : Std.Net.SocketAddress :=
          .v4 ⟨.ofParts 127 0 0 1, UInt16.ofNat options.port⟩
        let connecting ← (socket.connect address).toIO
        return ({ socket := some socket, connecting := some connecting }, client)
      else return (wiring, client)

def display (filter : Diagnostic.Filter) (tick : Tick) : IO Unit := do
  unless tick.printed.isEmpty do
    let stdout ← IO.getStdout
    stdout.write (bytesOf tick.printed)
    stdout.flush
  for d in tick.reported.filter filter.shows do
    IO.eprintln d.fullLine

/-- Ticks until the loop has ended. -/
partial def work {σ : Type} (options : Endpoint.Options) (filter : Diagnostic.Filter)
    (interrupt : AsyncTask Int) (wiring : Wiring) (engine : Engine σ) : IO σ := do
  let (wiring, client) ← look options wiring engine.client
  let raised ← IO.hasFinished interrupt
  let (engine, tick) := { engine with client }.tick (← IO.monoMsNow) raised
  transmit wiring tick.sent
  display filter tick
  if engine.role.isOver engine.session.run then return engine.session.run
  IO.sleep 1
  work options filter interrupt wiring engine

def drawWord : IO UInt32 := do
  let bytes ← IO.getRandomBytes 4
  return bytes.data.foldl (fun n o => n <<< 8 ||| o.toUInt32) 0

def publish (filter : Diagnostic.Filter) (options : Endpoint.Options) (topic : String) :
    IO UInt32 := do
  let interrupt ← (← Signal.Waiter.mk .sigint false).wait
  let plan := Plan.standard topic
  let reporter := Session.start Reporter.role { link := Link.deferred }
  let refuses := Client.refusesUnseen (.publish topic plan.qos "")
  let engine := Engine.start (Publisher.role plan) refuses options.keepAlive (some reporter)
  let run ← work options filter interrupt {} engine
  match run.phase with
  | .ended (.finished (.completed submitted)) =>
    display filter { sent := [], printed := [], reported := [.sendingFinished submitted] }
    IO.println "done"
    return 0
  | .ended (.finished (.interrupted submitted)) =>
    display filter { sent := [], printed := [], reported := [.sendingInterrupted submitted] }
    return 0
  | _ => return 1

def subscribe (filter : Diagnostic.Filter) (options : Endpoint.Options) (topic : String) :
    IO UInt32 := do
  let interrupt ← (← Signal.Waiter.mk .sigint false).wait
  let engine := Engine.start (Subscriber.role topic) false options.keepAlive none
  match ← work options filter interrupt {} engine with
  | .ended (.finished .interrupted) => return 0
  | _ =>
    IO.eprintln "Error: client event loop stopped"
    return 1

def run (program : Program) (words : List String) : IO UInt32 := do
  match CommandLine.read (words.map Octets.ofText) with
  | .run topic =>
    let filter := Diagnostic.Filter.ofSetting (← IO.getEnv "RUST_LOG")
    match program.clientOptions (← drawWord) with
    | .error e =>
      IO.eprintln e.message
      return 1
    | .ok options =>
      match program with
      | .publish => publish filter options topic
      | .subscribe => subscribe filter options topic
  | invocation =>
    match invocation.answer? program with
    | some answer =>
      IO.print answer.stdout
      IO.eprint answer.stderr
      return UInt32.ofNat answer.exitStatus
    | none => return 1

/-- Neither the command's name nor its first word is a program. -/
def unknownProgram : IO UInt32 := do
  IO.eprintln "the first word has to be publish or subscribe"
  return 2

end BrokerLoad.Main

/-- The program is the one that the command is called by, or else the first word. -/
def main (args : List String) : IO UInt32 := do
  let calledBy := (← IO.appPath).fileName.bind BrokerLoad.Program.ofName?
  match calledBy, args with
  | some program, words => BrokerLoad.Main.run program words
  | none, first :: words =>
    match BrokerLoad.Program.ofName? first with
    | some program => BrokerLoad.Main.run program words
    | none => BrokerLoad.Main.unknownProgram
  | none, [] => BrokerLoad.Main.unknownProgram
