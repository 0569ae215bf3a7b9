import Turna.StateBackend.CommandLog

/-! # Responses of the server

A call returns the bytes of the response, whether the server executed the function or not. A method learns of an error
only by decoding them.
-/

namespace Turna.StateBackend.Tarantool
open Lib

/-- A decoded value. A string may hold bytes that are no text. -/
inductive Value where
  | nil
  | boolean (b : Bool)
  | integer (n : Int)
  | string (text : Option String)
  | array (items : List Value)
  | map (entries : List (Value × Value))
  | other

/-- The two values of a response, each as far as it could be read. -/
structure Response where
  header : Except String Value
  body : Except String Value

namespace Response

variable (resp : Response)

def errorCode : List (Value × Value) → Option Nat :=
  List.findSome? fun
    | (.integer 0, .integer code) => if 0x8000 ≤ code.toNat then some code.toNat else none
    | _ => none

def errorText (code : Nat) : String :=
  let coded := "tarantool error code 0x" ++ String.ofList (Nat.toDigits 16 code)
  match resp.body with
  | .ok (.map bmap) =>
    (bmap.findSome? fun
      | (.integer 0x31, .string text) => some (text.getD "tarantool error")
      | _ => none).getD coded
  | _ => coded

def iprotoBody : Except BackendError (List Value) :=
  match resp.body with
  | .error text => .error (.serialization ("body decode: " ++ text))
  | .ok (.map bmap) =>
    .ok ((bmap.findSome? fun
      | (.integer 48, .array items) => some items
      | _ => none).getD [])
  | .ok _ => .ok []

def parseIprotoData : Except BackendError (List Value) :=
  match resp.header with
  | .error text => .error (.serialization ("header decode: " ++ text))
  | .ok (.map hmap) =>
    match errorCode hmap with
    | some code => .error (.other (resp.errorText code))
    | none => resp.iprotoBody
  | .ok _ => resp.iprotoBody

def parseCallData : Except BackendError (List Value) :=
  match resp.parseIprotoData with
  | .error e => .error e
  | .ok (.array inner :: _) => .ok inner
  | .ok (v :: _) => .ok [v]
  | .ok [] => .ok []

def callBool : Except BackendError Bool :=
  match resp.parseCallData with
  | .error e => .error e
  | .ok (.boolean b :: _) => .ok b
  | .ok (.nil :: _) => .ok false
  | .ok [] => .ok false
  | .ok _ => .error (.serialization "expected boolean")

/-- The server did not execute the function. -/
def IsError : Prop :=
  ∃ hmap code, resp.header = .ok (.map hmap) ∧ (.integer 0, .integer code) ∈ hmap ∧ 0x8000 ≤ code

theorem errorCode_of_mem {hmap : List (Value × Value)} {code : Int} (hIn : (.integer 0, .integer code) ∈ hmap)
    (hCode : 0x8000 ≤ code) : ∃ code', errorCode hmap = some code' := by
  rw [← Option.isSome_iff_exists, errorCode, List.findSome?_isSome_iff]
  refine ⟨_, hIn, ?_⟩
  have hCode' : 0x8000 ≤ code.toNat := by omega
  simp [hCode']

theorem parseCallData_of_isError {resp : Response} (h : resp.IsError) :
    ∃ text, resp.parseCallData = .error (.other text) := by
  obtain ⟨hmap, code, hHeader, hIn, hCode⟩ := h
  obtain ⟨code', hError⟩ := errorCode_of_mem hIn hCode
  simp only [parseCallData, parseIprotoData, hHeader, hError]
  exact ⟨_, rfl⟩

end Response

inductive Operation where
  | initSchema
  | storeAllocation
  | removeAllocation
  | heartbeat
  | adoptNodeIncarnation
  | storeUser
  | revokeToken
  | enqueueCommand (cmd : PendingCommand)
  | completeCommand
  | finalizeStaleCommand
  | claimAllocation
  | casRuntimeDesired
  | confirmRuntimeObserved
  | casUserLimitsDesired
  | confirmUserLimitsObserved

inductive Reply where
  | done
  | flag (b : Bool)
  | requestId (id : String)

/-- An older procedure answers with no flag; the request id is then the one that was sent. -/
def enqueueReply (cmd : PendingCommand) (resp : Response) : Except BackendError Reply :=
  match resp.parseCallData.toOption.getD [] with
  | _ :: .boolean true :: _ =>
    .error (.conflict ("idempotency key " ++ cmd.idempotencyKey.quote ++ " reused with a different payload"))
  | .string (some canonical) :: _ => .ok (.requestId (if canonical.isEmpty then cmd.requestId else canonical))
  | _ => .ok (.requestId cmd.requestId)

namespace Operation

/-- What the method makes of the response to its call. -/
def finish (resp : Response) : Operation → Except BackendError Reply
  | .initSchema => .ok .done
  | .storeAllocation => .ok .done
  | .removeAllocation => .ok .done
  | .heartbeat => .ok .done
  | .adoptNodeIncarnation => .ok .done
  | .storeUser => .ok .done
  | .revokeToken => .ok .done
  | .enqueueCommand cmd => enqueueReply cmd resp
  | .completeCommand => resp.callBool.map .flag
  | .finalizeStaleCommand => resp.callBool.map .flag
  | .claimAllocation => resp.callBool.map .flag
  | .casRuntimeDesired => resp.callBool.map .flag
  | .confirmRuntimeObserved => resp.callBool.map .flag
  | .casUserLimitsDesired => resp.callBool.map .flag
  | .confirmUserLimitsObserved => resp.callBool.map .flag

def answersFlag : Operation → Bool
  | .completeCommand => true
  | .finalizeStaleCommand => true
  | .claimAllocation => true
  | .casRuntimeDesired => true
  | .confirmRuntimeObserved => true
  | .casUserLimitsDesired => true
  | .confirmUserLimitsObserved => true
  | _ => false

theorem finish_of_flag {op : Operation} (h : op.answersFlag = true) (resp : Response) :
    op.finish resp = resp.callBool.map .flag := by
  cases op with
  | completeCommand | finalizeStaleCommand | claimAllocation => rfl
  | casRuntimeDesired | confirmRuntimeObserved | casUserLimitsDesired | confirmUserLimitsObserved => rfl
  | _ => cases h

theorem finish_of_no_flag {op : Operation} (h : op.answersFlag = false) {resp : Response} (hError : resp.IsError) :
    ∃ reply, op.finish resp = .ok reply := by
  cases op with
  | enqueueCommand cmd =>
    obtain ⟨text, hData⟩ := Response.parseCallData_of_isError hError
    simp only [finish, enqueueReply, hData]
    exact ⟨_, rfl⟩
  | completeCommand | finalizeStaleCommand | claimAllocation => cases h
  | casRuntimeDesired | confirmRuntimeObserved | casUserLimitsDesired | confirmUserLimitsObserved => cases h
  | _ => exact ⟨_, rfl⟩

end Operation

/-- Every other method reports success. -/
theorem server_error_reported (op : Operation) (resp : Response) (hError : resp.IsError) :
    (∃ e, op.finish resp = .error e) ↔ op.answersFlag = true := by
  constructor
  · rintro ⟨e, hFailed⟩
    by_contra hFlag
    obtain ⟨reply, hDone⟩ := Operation.finish_of_no_flag (Bool.eq_false_of_not_eq_true hFlag) hError
    rw [hFailed] at hDone
    cases hDone
  · intro hFlag
    obtain ⟨text, hData⟩ := Response.parseCallData_of_isError hError
    refine ⟨.other text, ?_⟩
    rw [Operation.finish_of_flag hFlag, Response.callBool, hData]
    rfl

/-- The procedure is missing, or the role may not call it. -/
def refusal : Response := ⟨.ok (.map [(.integer 0, .integer 0x8021)]), .ok (.map [])⟩

theorem refusal_isError : refusal.IsError := ⟨_, _, rfl, List.mem_singleton.mpr rfl, by decide⟩

theorem server_error_reported_claim : ∃ e, Operation.claimAllocation.finish refusal = .error e :=
  (server_error_reported .claimAllocation refusal refusal_isError).mpr rfl

theorem store_error_succeeds : refusal.IsError ∧ Operation.storeAllocation.finish refusal = .ok .done :=
  ⟨refusal_isError, rfl⟩

end Turna.StateBackend.Tarantool
