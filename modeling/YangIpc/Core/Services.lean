import YangIpc.Core.Loop

/-!
# The service initialisers

`yangipc_cmd_server_init`, `yangipc_udp_service_init`, `yangipc_tcp_service_init` and
`yangipc_cs2_service_init`, with `yangipc_transmission_malloc` below them.  Each of them keeps a
global pointer to what it has allocated.  An initialiser runs while it allocates blocks and creates
threads; whether these succeed is the environment's.  It is undefined after `NULL` or freed memory
was accessed.

## Main definitions

* `InitAnswers`: what the allocations and the thread creations answer
* `Pointer`, `Services`: the global pointers and what they lead to
* `yangipcTransmissionMalloc`, `yangipcCmdServerInit`, `yangipcUdpServiceInit`,
  `yangipcTcpServiceInit`, `yangipcCs2ServiceInit`: the functions
* `perform`: what an action of the message loop does to the services
-/

namespace YangIpc

namespace Core

/-! ## Answers -/

/-- The channels, by the service and the use. -/
inductive ChannelName
  | cmd
  | udpImg
  | udpAud
  | tcpImg
  | tcpAud
  | cs2
  | cs2Img
  | cs2Aud
deriving DecidableEq, Repr

/-- The arguments of `os_malloc`; the last three belong to a channel. -/
inductive Block
  | cmdInfo
  | udpService
  | tcpService
  | cs2Info
  | channel (name : ChannelName)
  | cbuf (name : ChannelName)
  | tbuf (name : ChannelName)
deriving DecidableEq, Repr

/-- The arguments of `rtos_create_thread`. -/
inductive ThreadName
  | cmdServer
  | udpService
  | tcpImage
  | tcpAudio
  | cs2Service
deriving DecidableEq, Repr

/-- What the environment answers while a service is initialised: whether there is memory for a
block, whether a thread is created, and whether the parameter of the message leads to a key. -/
structure InitAnswers where
  malloc : Block → Bool
  createThread : ThreadName → Bool
  key : Bool

/-! ## What is initialised -/

/-- A global pointer, and what it leads to. -/
inductive Pointer (α : Type)
  | null
  | object (a : α)
  | freed
deriving DecidableEq, Repr

/-- `db_channel_t`, as `yangipc_transmission_malloc` leaves it. -/
structure DbChannel where
  csize : UInt16
  tsize : UInt16
deriving DecidableEq, Repr

/-- `db_cmd_info_t`, as far as it is initialised; a thread is there or `NULL`. -/
structure DbCmdInfo where
  dbChannel : DbChannel
  thread : Bool
deriving DecidableEq, Repr

/-- `db_udp_service_t`, as far as it is initialised. -/
structure DbUdpService where
  imgChannel : DbChannel
  audChannel : DbChannel
  thd : Bool
deriving DecidableEq, Repr

/-- `db_tcp_service_t`, as far as it is initialised. -/
structure DbTcpService where
  imgChannel : Option DbChannel
  audChannel : Option DbChannel
  imgThd : Bool
  audThd : Bool
deriving DecidableEq, Repr

/-- `yangipc_cs2_info_t`, as far as it is initialised. -/
structure YangipcCs2Info where
  dbChannel : DbChannel
  imgChannel : Option DbChannel
  audChannel : Option DbChannel
  thd : Bool
deriving DecidableEq, Repr

/-- `db_cmd_info`, `db_udp_service`, `db_tcp_service` and `yangipc_cs2_info`. -/
structure Services where
  cmdInfo : Pointer DbCmdInfo
  udpService : Pointer DbUdpService
  tcpService : Pointer DbTcpService
  cs2Info : Pointer YangipcCs2Info
deriving DecidableEq, Repr

/-- The pointers before a service was started. -/
def Services.none : Services := ⟨.null, .null, .null, .null⟩

/-! ## The initialisers -/

/-- `sizeof(db_trans_head_t)`. -/
def dbTransHeadSize : UInt16 := 16

/-- `YANGIPC_CMD_BUFFER`. -/
def yangipcCmdBuffer : UInt16 := 1460

/-- `YANGIPC_UDP_NETWORK_MAX_SIZE`. -/
def yangipcUdpNetworkMaxSize : UInt16 := 1472

/-- `YANGIPC_TCP_NETWORK_MAX_SIZE`. -/
def yangipcTcpNetworkMaxSize : UInt16 := 1460

/-- `YANGIPC_NETWORK_MAX_SIZE`. -/
def yangipcNetworkMaxSize : UInt16 := 1024

/-- `yangipc_transmission_malloc`; the inner `none` is `NULL`. -/
def yangipcTransmissionMalloc (answers : InitAnswers) (name : ChannelName)
    (maxRxSize maxTxSize : UInt16) : Option (Option DbChannel) :=
  if answers.malloc (.channel name) then
    if answers.malloc (.cbuf name) then
      if answers.malloc (.tbuf name) then some (some ⟨maxRxSize + dbTransHeadSize, maxTxSize⟩)
      else some none
    else some none
  -- `db_channel->cbuf` after the label `error`
  else none

/-- `yangipc_cmd_server_init`. -/
def yangipcCmdServerInit (answers : InitAnswers) (s : Services) : Option Services :=
  if answers.malloc .cmdInfo then do
    let dbChannel ← yangipcTransmissionMalloc answers .cmd yangipcCmdBuffer yangipcCmdBuffer
    -- `db_channel->cb`
    let dbChannel ← dbChannel
    return { s with cmdInfo := .object ⟨dbChannel, answers.createThread .cmdServer⟩ }
  else some { s with cmdInfo := .null }

/-- `yangipc_udp_service_init`; the result is `true` for `BK_OK`. -/
def yangipcUdpServiceInit (answers : InitAnswers) (s : Services) : Option (Services × Bool) :=
  match s.udpService with
  | .null =>
    if answers.malloc .udpService then do
      match ← yangipcTransmissionMalloc answers .udpImg 0 yangipcUdpNetworkMaxSize with
      -- the pointer is not cleared, here and below
      | none => return ({ s with udpService := .freed }, false)
      | some imgChannel =>
        match ← yangipcTransmissionMalloc answers .udpAud yangipcUdpNetworkMaxSize
          yangipcUdpNetworkMaxSize with
        | none => return ({ s with udpService := .freed }, false)
        | some audChannel =>
          let thd := answers.createThread .udpService
          return ({ s with udpService := .object ⟨imgChannel, audChannel, thd⟩ }, thd)
    -- `db_udp_service->aud_channel` after the label `error`
    else none
  -- "db_udp_service already init"
  | _ => some (s, false)

/-- `yangipc_tcp_service_init`. -/
def yangipcTcpServiceInit (answers : InitAnswers) (s : Services) : Option Services :=
  if answers.malloc .tcpService then do
    let imgChannel ← yangipcTransmissionMalloc answers .tcpImg 0 yangipcTcpNetworkMaxSize
    let audChannel ← yangipcTransmissionMalloc answers .tcpAud yangipcTcpNetworkMaxSize
      yangipcTcpNetworkMaxSize
    return { s with tcpService := .object ⟨imgChannel, audChannel,
      answers.createThread .tcpImage, answers.createThread .tcpAudio⟩ }
  else some { s with tcpService := .null }

/-- `yangipc_cs2_service_init` from the `os_memset` on. -/
def cs2Fill (answers : InitAnswers) (s : Services) : Option (Services × Bool) := do
  let dbChannel ← yangipcTransmissionMalloc answers .cs2 yangipcNetworkMaxSize
    yangipcNetworkMaxSize
  -- `db_channel->cb`
  let dbChannel ← dbChannel
  match ← yangipcTransmissionMalloc answers .cs2Img 0 yangipcTcpNetworkMaxSize with
  | none => return ({ s with cs2Info := .object ⟨dbChannel, none, none, false⟩ }, false)
  | some imgChannel =>
    match ← yangipcTransmissionMalloc answers .cs2Aud 1600 yangipcTcpNetworkMaxSize with
    | none => return ({ s with cs2Info := .object ⟨dbChannel, imgChannel, none, false⟩ }, false)
    | some audChannel =>
      let thd := answers.createThread .cs2Service
      return ({ s with cs2Info := .object ⟨dbChannel, imgChannel, audChannel, thd⟩ }, thd)

/-- `yangipc_cs2_service_init`; the result is `true` for `BK_OK`. -/
def yangipcCs2ServiceInit (answers : InitAnswers) (s : Services) : Option (Services × Bool) :=
  if answers.key then
    match s.cs2Info with
    | .null => if answers.malloc .cs2Info then cs2Fill answers s else some (s, false)
    | .object _ => cs2Fill answers s
    | .freed => none
  -- "p2p_cs2_key null"
  else some (s, false)

/-- What an action of the message loop does to the services; what an initialiser returns is not
looked at. -/
def perform (answers : InitAnswers) (s : Services) : CoreAction → Option Services
  | .cmdServerInit => yangipcCmdServerInit answers s
  | .udpServiceInit => (yangipcUdpServiceInit answers s).map Prod.fst
  | .tcpServiceInit => yangipcTcpServiceInit answers s
  | .cs2ServiceInit _ => (yangipcCs2ServiceInit answers s).map Prod.fst
  | _ => some s

end Core

end YangIpc
