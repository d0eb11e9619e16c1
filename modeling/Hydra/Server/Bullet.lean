import Hydra.Server.Loop

/-!
# The bullet server

The migration requests of `server/bullet.c`, the commands of its clients and the body of its main
loop. The data of a request is a pointer into the message buffer, recorded as a byte offset.
-/

namespace Hydra.Server
open ByteMem Hydra.Ipc Hydra.LibHydra

/-- `MAX_MIGRATION_REQUESTS`. -/
def maxMigrationRequests : Int := 16

/-- `struct migration_request`; the status is 0 for pending, 1 for in progress, 2 for completed. -/
structure MigrationRequest where
  sourcePid : Int
  targetNode : Int
  processSize : Int
  processData : Nat
  status : Int

/-- `struct bullet_server`. -/
structure BulletServer where
  serverPid : Int
  requests : Nat → MigrationRequest
  numRequests : Int
  active : Bool

/-- C `bullet_init`. -/
def bulletInit (srv : BulletServer) (currentTask : Int) : BulletServer :=
  { srv with serverPid := syscallGetPid currentTask, numRequests := 0, active := true }

/-- C `handle_migration_request`: the id of the request, or -1. -/
def handleMigrationRequest (srv : BulletServer) (sourcePid targetNode : Int) (processData : Nat)
    (size : Int) : Int × BulletServer :=
  if maxMigrationRequests ≤ srv.numRequests then (-1, srv)
  else
    let req := {
      sourcePid := sourcePid
      targetNode := targetNode
      processSize := size
      processData := processData
      status := 0 }
    let srv := { srv with
      requests := Function.update srv.requests srv.numRequests.toNat req
      numRequests := srv.numRequests + 1 }
    (srv.numRequests - 1, srv)

/-- The loop of `process_migrations`: `n` more requests, from index `i` on. -/
def processFrom : Nat → Nat → BulletServer → BulletServer
  | 0, _, srv => srv
  | n + 1, i, srv =>
    let req := srv.requests i
    if req.status = 0 then
      -- in progress, then completed
      let srv := { srv with requests := Function.update srv.requests i { req with status := 1 } }
      processFrom n (i + 1) { srv with
        requests := Function.update srv.requests i { srv.requests i with status := 2 } }
    else processFrom n (i + 1) srv

/-- C `process_migrations`. -/
def processMigrations (srv : BulletServer) : BulletServer := processFrom srv.numRequests.toNat 0 srv

/-- C `bullet_handle_client_message`: the reply to the client, if any, and the server afterwards.
The message starts at offset 4 of the message buffer. -/
def bulletHandleClientMessage (srv : BulletServer) (senderPid : Int) (msgData : Mem)
    (msgSize : Int) : Option Reply × BulletServer :=
  if msgSize < 4 then (none, srv)
  else
    match arg msgData 0 with
    | 1 =>
      if 16 ≤ msgSize then
        let (reqId, srv) :=
          handleMigrationRequest srv senderPid (arg msgData 1) (4 + 12) (arg msgData 2)
        (some (intReply reqId), srv)
      else (none, srv)
    | 2 =>
      if 8 ≤ msgSize then
        let reqId := arg msgData 1
        if 0 ≤ reqId ∧ reqId < srv.numRequests then
          (some (intReply (srv.requests reqId.toNat).status), srv)
        else (some (intReply (-1)), srv)
      else (none, srv)
    | _ => (none, srv)

/-- The body of the loop of `bullet_server_main`, executed by the task `currentTask`. -/
def bulletServerBody (srv : BulletServer) (ipc : IpcState) (currentTask : Int) (msgBuffer : Mem) :
    Served BulletServer :=
  let r := serve bulletHandleClientMessage srv ipc currentTask msgBuffer
  { r with world := processMigrations r.world }

end Hydra.Server
