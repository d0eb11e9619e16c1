import Hydra.Server.Loop

/-!
# The client functions

The functions of `server/net_srv.c` and `server/bullet.c` that tasks call to use the servers. They
all put the caller's pid and a command into an array on the stack, try three times to send it to
the server, and do one receive into an `int` that holds -1 before. Only the command, its words and
the server differ.
-/

namespace Hydra.Server
open ByteMem Hydra.Ipc Hydra.LibHydra

/-- `NET_SERVER_PID`. -/
def netServerPid : Int := 4

/-- `BULLET_SERVER_PID`. -/
def bulletServerPid : Int := 3

/-- The retry loop: the number of retries left when it ends, and the state. The delay between the
attempts does not let another task run. -/
def sendRetry (server : Int) (cmdData : Mem) (size : Int) (currentTask : Int) :
    Nat → IpcState → Nat × IpcState
  | 0, s => (0, s)
  | retries + 1, s =>
    let result := syscallSendMsg s currentTask server (some cmdData) size
    if 0 ≤ result.1 then (retries + 1, result.2)
    else sendRetry server cmdData size currentTask retries result.2

/-- What a call gives: the return value and the state; and, for the record, whether the request was
sent, the state after that, and the return value of the receive. -/
structure CallResult where
  ret : Int
  state : IpcState
  requested : Bool
  afterSend : IpcState
  recvRet : Int

/-- Send the command to the server and receive into an `int`. -/
def clientCall (s : IpcState) (currentTask server : Int) (cmdData : Mem) (size : Int) :
    CallResult :=
  let (retries, s) := sendRetry server cmdData size currentTask 3 s
  if retries = 0 then ⟨-1, s, false, s, -1⟩
  else
    let received := syscallRecvMsg s currentTask server (some (intBytes (-1))) 4
    ⟨arg (received.buffer.getD (intBytes (-1))) 0, received.state, true, s, received.ret⟩

/-- Fill in the first words of the array `cmd_data` on the stack. -/
def setWords (stack : Mem) (i : Nat) : List Nat → Mem
  | [] => stack
  | v :: vs => setWords (store stack (4 * i) 4 v) (i + 1) vs

lemma load_setWords_of_le (stack : Mem) {i : Nat} (vs : List Nat) {a n : Nat} (h : a + n ≤ 4 * i) :
    load (setWords stack i vs) a n = load stack a n := by
  induction vs generalizing stack i with
  | nil => rfl
  | cons v vs ih =>
    unfold setWords
    rw [ih _ (by omega)]
    exact load_store_disjoint _ _ (.inr h)

/-- Each word of the array is read back. -/
lemma word_setWords (stack : Mem) {i j v : Nat} {vs : List Nat} (h : vs[j]? = some v) :
    word (setWords stack i vs) (i + j) = v % 256 ^ 4 := by
  induction vs generalizing stack i j with
  | nil => cases h
  | cons u vs ih =>
    unfold setWords
    cases j with
    | zero =>
      obtain rfl : u = v := Option.some.inj h
      unfold word
      rw [load_setWords_of_le _ _ (by omega)]
      exact load_store_same stack (4 * i) 4 u
    | succ j =>
      rw [show i + (j + 1) = i + 1 + j by omega]
      exact ih _ h

/-- An `int` in the array is read back. -/
lemma arg_setWords (stack : Mem) {j : Nat} {v : Int} {vs : List Nat}
    (h : vs[j]? = some (ofInt32 v)) (hlo : -2 ^ 31 ≤ v) (hhi : v < 2 ^ 31) :
    arg (setWords stack 0 vs) j = v := by
  have hword := word_setWords stack (i := 0) h
  rw [Nat.zero_add, Nat.mod_eq_of_lt (ofInt32_lt v)] at hword
  unfold arg
  rw [hword, toInt32_ofInt32 hlo hhi]

/-- C `net_socket`. -/
def netSocket (s : IpcState) (currentTask : Int) (stack : Mem) (type : Int) : CallResult :=
  clientCall s currentTask netServerPid
    (setWords stack 0 [ofInt32 (syscallGetPid currentTask), 1, ofInt32 type]) 12

/-- C `net_bind`. -/
def netBind (s : IpcState) (currentTask : Int) (stack : Mem) (sockId : Int) (ip : UInt32)
    (port : UInt16) : CallResult :=
  clientCall s currentTask netServerPid
    (setWords stack 0 [ofInt32 (syscallGetPid currentTask), 2, ofInt32 sockId,
      -- pack IP and port
      ((ip <<< 16) ||| port.toUInt32).toNat]) 16

/-- C `net_socket_send`. -/
def netSocketSend (s : IpcState) (currentTask : Int) (stack : Mem) (sockId : Int) (data : Mem)
    (len : Int) : CallResult :=
  let copyLen := if len < 240 then len else 240
  let cmdData := setWords stack 0
    [ofInt32 (syscallGetPid currentTask), 5, ofInt32 sockId, ofInt32 len]
  clientCall s currentTask netServerPid (copyAt data 16 copyLen.toNat cmdData) (16 + copyLen)

/-- C `bullet_migrate_process`; the data of the process is not sent. -/
def bulletMigrateProcess (s : IpcState) (currentTask : Int) (stack : Mem) (targetNode size : Int) :
    CallResult :=
  clientCall s currentTask bulletServerPid
    (setWords stack 0 [ofInt32 (syscallGetPid currentTask), 1, ofInt32 targetNode, ofInt32 size]) 16

/-- C `bullet_check_migration_status`. -/
def bulletCheckMigrationStatus (s : IpcState) (currentTask : Int) (stack : Mem) (reqId : Int) :
    CallResult :=
  clientCall s currentTask bulletServerPid
    (setWords stack 0 [ofInt32 (syscallGetPid currentTask), 2, ofInt32 reqId]) 12

end Hydra.Server
