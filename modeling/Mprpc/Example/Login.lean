import Mprpc.Client.Completion
import Mprpc.Deployment.Naming
import Mprpc.Example.User

/-!
# The user service and its callers

`UserServiceRpc` with its one method, the implementation of `userservice.cc`,
and the call that both client programs make.
-/

namespace Mprpc.Example

open Mprpc.Client
open Mprpc.Net
open Mprpc.Protobuf
open Mprpc.Rpc

/-- The messages that the service and its stub pass on as `Message`. -/
inductive UserMessage
  | loginRequest (msg : LoginRequest)
  | loginResponse (msg : LoginResponse)
  deriving DecidableEq, Repr

/-- `DownCast` to a request. -/
def UserMessage.loginRequest? : UserMessage → Option LoginRequest
  | .loginRequest msg => some msg
  | .loginResponse _ => none

/-- `DownCast` to a response. -/
def UserMessage.loginResponse? : UserMessage → Option LoginResponse
  | .loginRequest _ => none
  | .loginResponse msg => some msg

/-- A generated class behind its base class. -/
def castCodec {Msg : Type} (codec : MessageCodec Msg) (up : Msg → UserMessage)
    (down : UserMessage → Option Msg) : MessageCodec UserMessage where
  serialize message := (down message).bind codec.serialize
  parse input := (codec.parse input).map up

namespace UserServiceRpc

/-- The descriptor of `Login`. -/
def login : MethodDescriptor UserMessage where
  name := Bytes.ofString "Login"
  input := castCodec LoginRequest.codec .loginRequest UserMessage.loginRequest?
  output := castCodec LoginResponse.codec .loginResponse UserMessage.loginResponse?

/-- `UserServiceRpc::descriptor()`. -/
def descriptor : ServiceDescriptor UserMessage where
  name := Bytes.ofString "UserServiceRpc"
  fullName := Bytes.ofString "fixbug.UserServiceRpc"
  methods := [login]

end UserServiceRpc

namespace UserService

/-- `bool Login(std::string name, std::string pwd)`. -/
def login (_name _pwd : Bytes) : Bool :=
  true

/-- `UserService::Login`: the response when it runs `done`. -/
def respond (request : LoginRequest) : LoginResponse :=
  let localResult := login request.name request.pwd
  { result := some { errcode := 0, errmsg := [] }
    success := localResult }

/-- A registered `UserService`. -/
def registered (object : Nat) : Service UserMessage where
  object := object
  descriptor := UserServiceRpc.descriptor

/-- `UserServiceRpc::CallMethod` on what `OnMessage` has parsed, which is a
request. -/
def run (call : Dispatch UserMessage) : UserMessage :=
  match call.request with
  | .loginRequest request => .loginResponse (respond request)
  | .loginResponse _ => .loginResponse {}

end UserService

/-- `UserServiceRpc_Stub::Login`. -/
def UserServiceRpc.stubLogin (request : LoginRequest) : StubCall UserMessage where
  service := descriptor
  method := login
  request := .loginRequest request
  nameField := some request.name

/-- The test that the callback of the stress client makes. -/
def countsAsSuccess (controller : MprpcController) (response : LoginResponse) : Bool :=
  !controller.failed && response.resultCode.errcode == 0

theorem castCodec_lawful {Msg : Type} {codec : MessageCodec Msg} (lawful : codec.Lawful)
    {up : Msg → UserMessage} {down : UserMessage → Option Msg}
    (casts : ∀ {message msg}, down message = some msg → up msg = message) :
    (castCodec codec up down).Lawful where
  parse_serialize := by
    intro message bytes serialized
    rcases Option.bind_eq_some_iff.mp serialized with ⟨msg, cast, serialized⟩
    change (codec.parse bytes).map up = some message
    rw [lawful.parse_serialize serialized, Option.map_some, casts cast]
  serialize_length serialized := by
    rcases Option.bind_eq_some_iff.mp serialized with ⟨msg, -, serialized⟩
    exact lawful.serialize_length serialized

theorem UserServiceRpc.login_lawful : login.input.Lawful ∧ login.output.Lawful := by
  constructor
  · apply castCodec_lawful LoginRequest.codec_lawful
    intro message msg cast
    cases message with
    | loginRequest request =>
        cases cast
        rfl
    | loginResponse response => cases cast
  · apply castCodec_lawful LoginResponse.codec_lawful
    intro message msg cast
    cases message with
    | loginRequest request => cases cast
    | loginResponse response =>
        cases cast
        rfl

/-! ## Several answers in one buffer -/

theorem errcode_mergeFrom (msg source : LoginResponse) :
    (msg.mergeFrom source).resultCode.errcode =
      if source.resultCode.errcode = 0 then msg.resultCode.errcode
      else source.resultCode.errcode := by
  have nested : (msg.mergeFrom source).result = (msg.mergeResult source.result).result := by
    unfold LoginResponse.mergeFrom
    split
    · rfl
    · rfl
  unfold LoginResponse.resultCode at *
  rw [nested]
  rcases source with ⟨result, success⟩
  cases result with
  | none => rfl
  | some result =>
      simp only [LoginResponse.mergeResult, LoginResponse.resultCode, Option.getD_some,
        ResultCode.mergeFrom_eq]

/-- A later answer without an error does not hide an earlier error. -/
theorem errcode_foldl_mergeFrom (responses : List LoginResponse) (msg : LoginResponse) :
    (responses.foldl LoginResponse.mergeFrom msg).resultCode.errcode = 0 ↔
      msg.resultCode.errcode = 0 ∧ ∀ response ∈ responses, response.resultCode.errcode = 0 := by
  induction responses generalizing msg with
  | nil => simp
  | cons response responses inductionHypothesis =>
      rw [List.foldl_cons, inductionHypothesis, errcode_mergeFrom]
      by_cases zero : response.resultCode.errcode = 0
      · simp [zero]
      · simp [zero]

/-- The buffer of a task's `recv` may hold any number of answers.  The task
takes what `MergeFrom` makes of them for its response, and the callback counts a
success exactly if none of them carries an error, so also if there are none. -/
theorem login_counts_iff (fd : Fd) (count : Nat) (responses : List LoginResponse)
    (inBuffer : (responses.flatMap LoginResponse.encode).length ≤ recvBufSize) :
    ∃ exit response,
      rpcTask UserServiceRpc.login.output
          ⟨some fd, .sent count, .received (responses.flatMap LoginResponse.encode)⟩ = exit ∧
        exit.response = some (.loginResponse response) ∧
        response = responses.foldl LoginResponse.mergeFrom {} ∧
        (countsAsSuccess (exit.setController {}) response = true ↔
          ∀ response ∈ responses, response.resultCode.errcode = 0) := by
  have bound : (responses.flatMap LoginResponse.encode).length < sizeLimit :=
    Nat.lt_of_le_of_lt inBuffer (by decide)
  have parsed : UserServiceRpc.login.output.parse (responses.flatMap LoginResponse.encode) =
      some (.loginResponse (responses.foldl LoginResponse.mergeFrom {})) :=
    congrArg (Option.map UserMessage.loginResponse) (LoginResponse.parse_concatenated bound)
  have answered : rpcTask UserServiceRpc.login.output
      ⟨some fd, .sent count, .received (responses.flatMap LoginResponse.encode)⟩ =
        .answered (.loginResponse (responses.foldl LoginResponse.mergeFrom {})) :=
    rpcTask_eq_answered_iff.mpr ⟨fd, count, _, rfl, rfl, rfl, parsed⟩
  refine ⟨_, _, answered, rfl, rfl, ?_⟩
  have merged := errcode_foldl_mergeFrom responses {}
  simp only [countsAsSuccess, TaskExit.setController, TaskExit.reason, Bool.not_false,
    Bool.true_and, beq_iff_eq]
  rw [merged]
  simp [LoginResponse.resultCode]

/-- An answer with an error and one without in the same buffer. -/
theorem error_before_success_counts :
    ∃ exit response,
      rpcTask UserServiceRpc.login.output ⟨some 7, .sent 35, .received
          ([{ result := some { errcode := 7 } }, UserService.respond {}].flatMap
            LoginResponse.encode)⟩ = exit ∧
        exit.response = some (.loginResponse response) ∧
        response = [{ result := some { errcode := 7 } }, UserService.respond {}].foldl
          LoginResponse.mergeFrom {} ∧
        (countsAsSuccess (exit.setController {}) response = true ↔
          ∀ response ∈ [{ result := some { errcode := 7 } }, UserService.respond {}],
            response.resultCode.errcode = 0) :=
  login_counts_iff 7 35 [{ result := some { errcode := 7 } }, UserService.respond {}] (by decide)

end Mprpc.Example
