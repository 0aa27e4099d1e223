/-
Module: LobbySvr.Proofs.XorParser
Layer: Proofs
Purpose: `packetParser_xor` on a changed receive buffer runs as `packetParser_notUseEnc` on the unchanged one.  What
  an iteration does in front of a body depends on the number of bytes and on the keys only, and neither is
  changed; the bodies are turned back before anybody looks at them.
Imports: LobbySvr.Spec.Obfuscation, LobbySvr.Proofs.MessageBufferQueue
Trusted boundary: none
Main exports: enterBytes, enterPart_bytes, enterBytes_congr, takeBody_ok, xorFetch_ok, obfuscateFrom_length,
  XorRelates, xorStep_agrees, xor_parser_agrees
Open obligations: none
-/
import LobbySvr.Spec.Obfuscation
import LobbySvr.Proofs.MessageBufferQueue

namespace LobbySvr.Proofs

open LobbySvr.Foundation
open LobbySvr.Net
open LobbySvr.Spec
open LobbySvr.Lobby

/-! ### The front of an iteration on bytes -/

section

variable {κ : Type} (parser : FrameParser κ)

/-- From the part key on, `front` bytes into the buffer: how many bytes stand in front of the body, its size
    and the counter behind it, or how the loop is left and what stays in the buffer. -/
def keyBytes (total : UInt32) (front : Nat) (bytes : List UInt8) :
    LoopStep (Nat × UInt32 × UInt32) (ParseEnd × List UInt8) :=
  if bytes.length < front + sizeKey then
    .done (.raised (.runtimeError MessageBuffer.cantReadableText), bytes.drop front)
  else
    let key := u32Of ((bytes.drop front).take sizeKey)
    if parser.keys.partKeyOk key then
      let size := parser.keys.partLength key
      if bytes.length < front + sizeKey + size.toNat then .done (.returned false, [])
      else .next (front + sizeKey, size, total - (size + 4))
    else .done (.returned false, [])

/-- The front of an iteration. -/
def enterBytes (fromMainKey : Bool) (total : UInt32) (bytes : List UInt8) :
    LoopStep (Nat × UInt32 × UInt32) (ParseEnd × List UInt8) :=
  if fromMainKey then
    if bytes.length < sizeHeader then .done (.returned true, bytes)
    else
      let key := u32Of (bytes.take sizeKey)
      if parser.keys.mainKeyOk key then
        let total := parser.keys.mainLength key + 4
        if bytes.length < total.toNat then .done (.returned true, bytes)
        else keyBytes parser total sizeKey bytes
      else .done (.returned false, [])
  else keyBytes parser total 0 bytes

variable {parser}

/-- The loop stands in front of a body. -/
structure Entered (bytes : List UInt8) (calls : List (Call κ)) (entry : UInt32 × ParseState κ)
    (found : Nat × UInt32 × UInt32) : Prop where
  size : entry.1 = found.2.1
  valid : entry.2.msg.Valid
  content : entry.2.msg.bytes = bytes.drop found.1
  front : found.1 ≤ bytes.length
  within : entry.1.toNat ≤ entry.2.msg.bytes.length
  mode : entry.2.readStartFromMainKey = (found.2.2 == 4)
  total : entry.2.totalSize = found.2.2
  calls : entry.2.calls = calls

/-- The loop has been left in front of a body. -/
structure LeftAt (calls : List (Call κ)) (result : ParseResult κ) (found : ParseEnd × List UInt8) :
    Prop where
  ending : result.ending = found.1
  valid : result.msg.Valid
  bytes : result.msg.bytes = found.2
  calls : result.calls = calls

theorem takeKey_bytes {state : ParseState κ} {bytes : List UInt8} {front : Nat}
    (valid : state.msg.Valid) (there : front ≤ bytes.length)
    (content : state.msg.bytes = bytes.drop front) :
    StepsAgree (Entered bytes state.calls) (LeftAt state.calls) (takeKey parser state)
      (keyBytes parser state.totalSize front bytes) := by
  have length : state.msg.bytes.length = bytes.length - front := by rw [content, List.length_drop]
  unfold takeKey keyBytes
  by_cases short : bytes.length < front + sizeKey
  · have missing : state.msg.bytes.length < sizeKey := by omega
    rw [if_pos short, MessageBuffer.read_short valid.ordered missing (by decide)]
    exact .done ⟨rfl, valid, content, rfl⟩
  · obtain ⟨msg, keyRead, msgValid, msgBytes⟩ :=
      MessageBuffer.read_ok valid (show sizeKey ≤ state.msg.bytes.length by omega)
    have behind : msg.bytes = bytes.drop (front + sizeKey) := by
      rw [msgBytes, content, List.drop_drop]
    have left : msg.bytes.length = bytes.length - (front + sizeKey) := by
      rw [behind, List.length_drop]
    simp only [if_neg short, keyRead, content]
    split
    · generalize parser.keys.partLength (u32Of ((bytes.drop front).take sizeKey)) = size
      by_cases late : bytes.length < front + sizeKey + size.toNat
      · have unreadable : ¬ msg.readable size.toNat = true := by
          intro found
          have within := (MessageBuffer.readable_iff msgValid.ordered _).mp found
          omega
        rw [if_neg unreadable, if_pos late]
        exact .done ⟨rfl, msg.readAll_valid, by simp, rfl⟩
      · have within : size.toNat ≤ msg.bytes.length := by omega
        have found := (MessageBuffer.readable_iff msgValid.ordered _).mpr within
        rw [if_pos found, if_neg late]
        exact .next ⟨rfl, msgValid, behind, by simp only; omega, within, rfl, rfl, rfl⟩
    · exact .done ⟨rfl, msg.readAll_valid, by simp, rfl⟩

/-- The front of an iteration depends on the readable bytes, the mode and the counter only. -/
theorem enterPart_bytes {state : ParseState κ} (valid : state.msg.Valid) :
    StepsAgree (Entered state.msg.bytes state.calls) (LeftAt state.calls) (enterPart parser state)
      (enterBytes parser state.readStartFromMainKey state.totalSize state.msg.bytes) := by
  unfold enterPart enterBytes beginPacket
  by_cases fromMainKey : state.readStartFromMainKey = true
  · rw [if_pos fromMainKey, if_pos fromMainKey, MessageBuffer.readableInto_eq valid.ordered]
    by_cases short : state.msg.bytes.length < sizeHeader
    · rw [if_neg (Nat.not_le_of_lt short), if_pos short]
      exact .done ⟨rfl, valid, rfl, rfl⟩
    · -- The peeked header holds the same main key as the front of the readable bytes.
      have mainKey : (state.msg.bytes.take sizeHeader).take sizeKey =
          state.msg.bytes.take sizeKey := by
        rw [List.take_take]
        rfl
      simp only [if_pos (Nat.le_of_not_lt short), if_neg short, mainKey]
      by_cases keyOk : parser.keys.mainKeyOk (u32Of (state.msg.bytes.take sizeKey)) = true
      · simp only [keyOk, if_true]
        generalize parser.keys.mainLength (u32Of (state.msg.bytes.take sizeKey)) + 4 = total
        by_cases late : state.msg.bytes.length < total.toNat
        · have unreadable : ¬ state.msg.readable total.toNat = true := by
            intro found
            have within := (MessageBuffer.readable_iff valid.ordered _).mp found
            omega
          simp only [if_neg unreadable, if_pos late]
          exact .done ⟨rfl, valid, rfl, rfl⟩
        · have found := (MessageBuffer.readable_iff valid.ordered _).mpr (Nat.le_of_not_lt late)
          have keyThere : sizeKey ≤ state.msg.bytes.length := by
            simp only [sizeHeader, sizeKey] at short ⊢
            omega
          obtain ⟨msg, keyRead, msgValid, msgBytes⟩ := MessageBuffer.readCount_ok valid keyThere
          simp only [if_pos found, if_neg late, keyRead]
          exact @takeKey_bytes κ parser { state with header := _, totalSize := total, msg := msg } _ _
            msgValid keyThere msgBytes
      · simp only [if_neg keyOk]
        exact .done ⟨rfl, state.msg.readAll_valid, by simp, rfl⟩
  · rw [if_neg fromMainKey, if_neg fromMainKey]
    exact takeKey_bytes valid (Nat.zero_le _) (by rw [List.drop_zero])

/-- The part key ends where the body begins. -/
theorem keyBytes_front {total : UInt32} {start : Nat} {bytes : List UInt8}
    {found : Nat × UInt32 × UInt32} (enters : keyBytes parser total start bytes = .next found) :
    found.1 = start + sizeKey := by
  unfold keyBytes at enters
  split at enters
  · cases enters
  · simp only at enters
    split at enters
    · split at enters
      · cases enters
      · cases enters
        rfl
    · cases enters

theorem keyBytes_congr {total : UInt32} {start : Nat} {bytes other : List UInt8}
    {found : Nat × UInt32 × UInt32} (same : other.length = bytes.length)
    (front : other.take found.1 = bytes.take found.1)
    (enters : keyBytes parser total start bytes = .next found) :
    keyBytes parser total start other = .next found := by
  have reaches := keyBytes_front enters
  unfold keyBytes at enters ⊢
  split at enters
  · cases enters
  · rename_i enough
    rw [if_neg (by rw [same]; exact enough)]
    have key : (other.drop start).take sizeKey = (bytes.drop start).take sizeKey := by
      have cut := congrArg (List.drop start) front
      rw [reaches, List.drop_take, List.drop_take, Nat.add_sub_cancel_left] at cut
      exact cut
    simp only [key, same]
    exact enters

/-- Bytes behind the keys do not matter, only their number does. -/
theorem enterBytes_congr {fromMainKey : Bool} {total : UInt32} {bytes other : List UInt8}
    {found : Nat × UInt32 × UInt32} (same : other.length = bytes.length)
    (front : other.take found.1 = bytes.take found.1)
    (enters : enterBytes parser fromMainKey total bytes = .next found) :
    enterBytes parser fromMainKey total other = .next found := by
  unfold enterBytes at enters ⊢
  split at enters
  · rename_i isMain
    rw [if_pos isMain]
    split at enters
    · cases enters
    · rename_i enough
      rw [if_neg (by rw [same]; exact enough)]
      have reaches : sizeKey ≤ found.1 := by
        simp only at enters
        split at enters
        · split at enters
          · cases enters
          · rw [keyBytes_front enters]
            exact Nat.le_add_left ..
        · cases enters
      have key : other.take sizeKey = bytes.take sizeKey := by
        have cut := congrArg (List.take sizeKey) front
        rw [List.take_take, List.take_take, Nat.min_eq_left reaches] at cut
        exact cut
      simp only [key, same] at enters ⊢
      split at enters
      · rename_i keyOk
        rw [if_pos keyOk]
        split at enters
        · cases enters
        · rename_i arrived
          rw [if_neg arrived]
          exact keyBytes_congr same front enters
      · cases enters
  · rename_i isPart
    rw [if_neg isPart]
    exact keyBytes_congr same front enters

/-! ### The body -/

/-- The end of an iteration of the plain loop reads the body and hands it on. -/
theorem takeBody_ok (handlers : Handlers κ) {size : UInt32} {entered : ParseState κ}
    (valid : entered.msg.Valid) (within : size.toNat ≤ entered.msg.bytes.length) :
    ∃ later : MessageBuffer, later.Valid ∧ later.bytes = entered.msg.bytes.drop size.toNat ∧
      takeBody parser handlers size entered =
        callHandler parser handlers { entered with msg := later } size
          (.received (entered.msg.bytes.take size.toNat)) := by
  obtain ⟨later, bodyRead, laterValid, laterBytes⟩ := MessageBuffer.read_ok valid within
  have fits : (entered.msg.bytes.take size.toNat).length ≤ MessageBuffer.maxBufferSize := by
    rw [List.length_take_of_le within]
    rw [MessageBuffer.bytes_length] at within
    exact Nat.le_trans within valid.size_le
  refine ⟨later, laterValid, laterBytes, ?_⟩
  simp only [takeBody, bodyRead, MessageBuffer.fill_empty fits]

/-- Two loops that stand behind the same body with the same counter go on in the same way. -/
structure SameLoop (left right : ParseState κ) : Prop where
  mode : right.readStartFromMainKey = left.readStartFromMainKey
  total : right.totalSize = left.totalSize
  calls : right.calls = left.calls

theorem callHandler_same (handlers : Handlers κ) {left right : ParseState κ}
    (same : SameLoop left right) (size : UInt32) (procMsg : MessageBuffer) :
    StepsAgree
      (fun leftLater rightLater => SameLoop leftLater rightLater ∧ leftLater.msg = left.msg ∧
        rightLater.msg = right.msg)
      (fun leftResult rightResult => rightResult.ending = leftResult.ending ∧
        rightResult.calls = leftResult.calls ∧
        ((leftResult.msg = left.msg.readAll ∧ rightResult.msg = right.msg.readAll) ∨
          (leftResult.msg = left.msg ∧ rightResult.msg = right.msg)))
      (callHandler parser handlers left size procMsg)
      (callHandler parser handlers right size procMsg) := by
  unfold callHandler
  cases parser.route (packetCode parser.codeSize procMsg) with
  | none => exact .done ⟨rfl, by rw [same.calls], .inl ⟨rfl, rfl⟩⟩
  | some kind =>
      simp only
      cases handlers kind size procMsg with
      | some fault => exact .done ⟨rfl, by rw [same.calls], .inr ⟨rfl, rfl⟩⟩
      | none => exact .next ⟨⟨same.mode, same.total, by rw [same.calls]⟩, rfl, rfl⟩

end

/-- The passes over a message turn a changed body back. -/
theorem received_xorBytes (body : List UInt8) :
    { MessageBuffer.received (xorBytes body) with
        buffer := xorPasses 0 body.length (MessageBuffer.received (xorBytes body)).buffer } =
      MessageBuffer.received body := by
  have buffer : xorPasses 0 body.length (MessageBuffer.received (xorBytes body)).buffer =
      (MessageBuffer.received body).buffer := by
    funext cell
    rw [xorPasses_eq, xorPass_apply]
    simp only [MessageBuffer.received, writeRange, Nat.zero_le, if_true, Nat.sub_zero, true_and,
      Nat.zero_add]
    by_cases inside : cell < body.length
    · rw [if_pos inside]
      simp only [xorBytes, List.getElem?_map, List.getElem?_eq_getElem inside, Option.map_some,
        Option.getD_some]
      rw [UInt8.xor_assoc, UInt8.xor_self, UInt8.xor_zero]
    · rw [if_neg inside]
      simp only [xorBytes, List.getElem?_map, List.getElem?_eq_none (Nat.le_of_not_lt inside),
        Option.map_none]
  rw [buffer]
  simp only [MessageBuffer.received, xorBytes_length]

/-- The stage on a changed body. -/
theorem xorFetch_ok {ω : Type} {msg : MessageBuffer} (valid : msg.Valid) {size : UInt32}
    {body behind : List UInt8} (length : body.length = size.toNat)
    (content : msg.bytes = xorBytes body ++ behind) (world : ω) :
    ∃ later, later.Valid ∧ later.bytes = behind ∧
      xorFetch size msg world = .procMsg later (.received body) world := by
  have front : (xorBytes body).length = size.toNat := by rw [xorBytes_length, length]
  have within : size.toNat ≤ msg.bytes.length := by
    rw [content, List.length_append, front]
    exact Nat.le_add_right ..
  have fits : (xorBytes body).length ≤ MessageBuffer.maxBufferSize := by
    rw [front]
    rw [MessageBuffer.bytes_length] at within
    exact Nat.le_trans within valid.size_le
  obtain ⟨later, moved, laterValid, laterBytes⟩ := MessageBuffer.read_ok valid within
  rw [content, List.take_left' front] at moved
  rw [content, List.drop_left' front] at laterBytes
  refine ⟨later, laterValid, laterBytes, ?_⟩
  have decoded := received_xorBytes body
  rw [length] at decoded
  simp only [xorFetch, plainFetch, moved, MessageBuffer.fill_empty fits]
  rw [← decoded]
  rfl

/-! ### The changed bytes -/

section

variable {κ : Type} {parser : FrameParser κ} {handlers : Handlers κ}

/-- An iteration of the plain loop that takes a body: the keys, the body, and the buffer behind it. -/
structure TakesBody (parser : FrameParser κ) (handlers : Handlers κ) (state : ParseState κ)
    (size : UInt32) (entered : ParseState κ) (keys body : List UInt8) (later : MessageBuffer) : Prop where
  enters : enterPart parser state = .next (size, entered)
  found : enterBytes parser state.readStartFromMainKey state.totalSize state.msg.bytes =
    .next (keys.length, size, entered.totalSize)
  keysTaken : state.msg.bytes.take (state.msg.size - entered.msg.size) = keys
  bodyTaken : entered.msg.bytes.take size.toNat = body
  behind : entered.msg.bytes.drop size.toNat = later.bytes
  split : state.msg.bytes = keys ++ (body ++ later.bytes)
  length : body.length = size.toNat
  valid : later.Valid
  mode : entered.readStartFromMainKey = (entered.totalSize == 4)
  calls : entered.calls = state.calls
  step : frameStep parser handlers state =
    callHandler parser handlers { entered with msg := later } size (.received body)

theorem takesBody (handlers : Handlers κ) {state : ParseState κ} {size : UInt32} {entered : ParseState κ}
    (valid : state.msg.Valid) (enters : enterPart parser state = .next (size, entered)) :
    ∃ keys body later, TakesBody parser handlers state size entered keys body later := by
  have agreed : StepsAgree (Entered state.msg.bytes state.calls) (LeftAt state.calls)
      (enterPart parser state)
      (enterBytes parser state.readStartFromMainKey state.totalSize state.msg.bytes) :=
    enterPart_bytes valid
  rw [enters] at agreed
  obtain ⟨⟨front, otherSize, total⟩, found, related⟩ := agreed.of_next
  obtain ⟨rfl, enteredValid, content, inside, within, mode, rfl, calls⟩ := related
  simp only at content inside within mode calls
  obtain ⟨later, laterValid, laterBytes, step⟩ := takeBody_ok handlers enteredValid within
  have keysLength : (state.msg.bytes.take front).length = front := List.length_take_of_le inside
  have frontSize : state.msg.size - entered.msg.size = front := by
    rw [← MessageBuffer.bytes_length, ← MessageBuffer.bytes_length, content, List.length_drop]
    omega
  refine ⟨state.msg.bytes.take front, entered.msg.bytes.take size.toNat, later, enters, ?_, ?_,
    rfl, laterBytes.symm, ?_, List.length_take_of_le within, laterValid, mode, calls, ?_⟩
  · rw [keysLength]
    exact found
  · rw [frontSize]
  · rw [laterBytes, List.take_append_drop, content, List.take_append_drop]
  · rw [frameStep_eq, enters]
    exact step

theorem TakesBody.later {state entered later : ParseState κ} {size : UInt32} {keys body : List UInt8}
    {msg : MessageBuffer} (takes : TakesBody parser handlers state size entered keys body msg)
    (iteration : frameStep parser handlers state = .next later) : later.msg = msg := by
  rw [takes.step] at iteration
  exact callHandler_msg iteration

theorem obfuscateStep_append (point : ParseState κ × List UInt8) (earlier : List UInt8) :
    obfuscateStep parser handlers (point.1, earlier ++ point.2) =
      match obfuscateStep parser handlers point with
      | .done output => .done (earlier ++ output)
      | .next later => .next (later.1, earlier ++ later.2) := by
  unfold obfuscateStep
  cases enterPart parser point.1 with
  | done result => simp only [List.append_assoc]
  | next entry =>
      cases frameStep parser handlers point.1 with
      | done result => simp only [List.append_assoc]
      | next later => simp only [List.append_assoc]

theorem obfuscate_append (point : ParseState κ × List UInt8) (earlier : List UInt8) :
    loop (obfuscateStep parser handlers) (fun point => point.1.msg.size) obfuscateStep_decreases
        (point.1, earlier ++ point.2) =
      earlier ++ loop (obfuscateStep parser handlers) (fun point => point.1.msg.size)
        obfuscateStep_decreases point := by
  refine loop_rule obfuscateStep_decreases
    (motive := fun point output => loop (obfuscateStep parser handlers)
      (fun point => point.1.msg.size) obfuscateStep_decreases (point.1, earlier ++ point.2) =
        earlier ++ output) ?_ ?_ point
  · intro point output iteration
    apply loop_done
    rw [obfuscateStep_append, iteration]
  · intro point later iteration inductionHypothesis
    have shifted : obfuscateStep parser handlers (point.1, earlier ++ point.2) =
        .next (later.1, earlier ++ later.2) := by
      rw [obfuscateStep_append, iteration]
    rw [loop_next obfuscateStep_decreases shifted, inductionHypothesis]

/-- A loop that is left in front of a body keeps what it has not read. -/
theorem obfuscateFrom_stops {state : ParseState κ} {result : ParseResult κ}
    (enters : enterPart parser state = .done result) :
    obfuscateFrom parser handlers state = state.msg.bytes := by
  apply loop_done
  simp only [obfuscateStep, enters, List.nil_append]

/-- The last body that is taken is changed, and what lies behind it is kept. -/
theorem obfuscateFrom_last {state entered : ParseState κ} {size : UInt32} {keys body : List UInt8}
    {msg : MessageBuffer} (takes : TakesBody parser handlers state size entered keys body msg)
    {result : ParseResult κ} (iteration : frameStep parser handlers state = .done result) :
    obfuscateFrom parser handlers state = keys ++ (xorBytes body ++ msg.bytes) := by
  apply loop_done
  simp only [obfuscateStep, takes.enters, iteration, takes.keysTaken, takes.bodyTaken, takes.behind,
    List.nil_append]

/-- A body that is taken is changed, and the loop goes on behind it. -/
theorem obfuscateFrom_next {state entered later : ParseState κ} {size : UInt32}
    {keys body : List UInt8} {msg : MessageBuffer}
    (takes : TakesBody parser handlers state size entered keys body msg)
    (iteration : frameStep parser handlers state = .next later) :
    obfuscateFrom parser handlers state =
      keys ++ (xorBytes body ++ obfuscateFrom parser handlers later) := by
  have step : obfuscateStep parser handlers (state, []) = .next (later, (keys ++ xorBytes body) ++ []) := by
    simp only [obfuscateStep, takes.enters, iteration, takes.keysTaken, takes.bodyTaken, List.nil_append,
      List.append_nil]
  rw [obfuscateFrom, loop_next obfuscateStep_decreases step, obfuscate_append (later, []),
    List.append_assoc]
  rfl

/-- No byte is added and none is lost. -/
theorem obfuscateFrom_length {state : ParseState κ} (valid : state.msg.Valid) :
    (obfuscateFrom parser handlers state).length = state.msg.bytes.length := by
  have decreases : Decreases (frameStep parser handlers) (fun state => state.msg.size) :=
    frameStep_decreases
  refine loop_rule decreases
    (motive := fun state _ => state.msg.Valid →
      (obfuscateFrom parser handlers state).length = state.msg.bytes.length) ?_ ?_ state valid
  · intro state result iteration valid
    cases enters : enterPart parser state with
    | done left => rw [obfuscateFrom_stops enters]
    | next entry =>
        obtain ⟨size, entered⟩ := entry
        obtain ⟨keys, body, msg, takes⟩ := takesBody handlers valid enters
        rw [obfuscateFrom_last takes iteration, takes.split]
        simp only [List.length_append, xorBytes_length]
  · intro state later iteration inductionHypothesis valid
    cases enters : enterPart parser state with
    | done left =>
        rw [frameStep_eq, enters] at iteration
        cases iteration
    | next entry =>
        obtain ⟨size, entered⟩ := entry
        obtain ⟨keys, body, msg, takes⟩ := takesBody handlers valid enters
        have same := takes.later iteration
        have length := inductionHypothesis (by rw [same]; exact takes.valid)
        rw [obfuscateFrom_next takes iteration, takes.split]
        simp only [List.length_append, xorBytes_length, length, same]

/-! ### The two loops side by side -/

/-- The plain loop, and the decoding loop on the changed bytes of what the plain one has not read. -/
structure XorRelates (parser : FrameParser κ) (handlers : Handlers κ) (state : ParseState κ)
    (staged : StagedState κ Unit) : Prop where
  valid : state.msg.Valid
  otherValid : staged.parse.msg.Valid
  same : SameLoop state staged.parse
  content : staged.parse.msg.bytes = obfuscateFrom parser handlers state

/-- The two loops have ended in the same way. -/
structure XorAgrees (result : ParseResult κ) (staged : StagedResult κ Unit) : Prop where
  ending : staged.result.ending = result.ending
  calls : staged.result.calls = result.calls
  content : staged.result.msg.bytes = result.msg.bytes

/-- The changed bytes of an iteration that takes a body. -/
theorem TakesBody.obfuscated {state entered : ParseState κ} {size : UInt32} {keys body : List UInt8}
    {msg : MessageBuffer} (takes : TakesBody parser handlers state size entered keys body msg) :
    ∃ tail, obfuscateFrom parser handlers state = keys ++ (xorBytes body ++ tail) ∧
      tail.length = msg.bytes.length ∧
      (∀ result, frameStep parser handlers state = .done result → tail = msg.bytes) ∧
      ∀ later, frameStep parser handlers state = .next later →
        tail = obfuscateFrom parser handlers later := by
  cases iteration : frameStep parser handlers state with
  | done result =>
      refine ⟨msg.bytes, obfuscateFrom_last takes iteration, rfl, fun _ _ => rfl, ?_⟩
      intro later other
      cases other
  | next later =>
      have same := takes.later iteration
      have length : (obfuscateFrom parser handlers later).length = msg.bytes.length := by
        rw [obfuscateFrom_length (by rw [same]; exact takes.valid), same]
      refine ⟨_, obfuscateFrom_next takes iteration, length, ?_, ?_⟩
      · intro result other
        cases other
      · intro other went
        cases went
        rfl

/-- The decoding loop in front of a changed body calls what the plain loop calls. -/
theorem xorStep_body {state entered : ParseState κ} {size : UInt32} {keys body tail : List UInt8}
    {msg : MessageBuffer} {staged : StagedState κ Unit}
    (takes : TakesBody parser handlers state size entered keys body msg)
    (otherValid : staged.parse.msg.Valid) (same : SameLoop state staged.parse)
    (content : staged.parse.msg.bytes = keys ++ (xorBytes body ++ tail))
    (length : tail.length = msg.bytes.length) :
    ∃ (other : ParseState κ) (later : MessageBuffer),
      SameLoop { entered with msg := msg } { other with msg := later } ∧ later.Valid ∧
      later.bytes = tail ∧
      stagedStep parser xorFetch (.ofHandlers handlers) staged =
        inUnit (callHandler parser handlers { other with msg := later } size (.received body)) := by
  have lengths : staged.parse.msg.bytes.length = state.msg.bytes.length := by
    rw [content, takes.split]
    simp only [List.length_append, xorBytes_length, length]
  have front : staged.parse.msg.bytes.take keys.length = state.msg.bytes.take keys.length := by
    rw [content, takes.split, List.take_left, List.take_left]
  have found := enterBytes_congr lengths front takes.found
  have agreed : StepsAgree (Entered staged.parse.msg.bytes staged.parse.calls)
      (LeftAt staged.parse.calls) (enterPart parser staged.parse)
      (enterBytes parser staged.parse.readStartFromMainKey staged.parse.totalSize
        staged.parse.msg.bytes) := enterPart_bytes otherValid
  rw [same.mode, same.total, found] at agreed
  obtain ⟨⟨otherSize, other⟩, enters, related⟩ := agreed.next_of
  obtain ⟨rfl, enteredValid, otherContent, -, -, mode, total, calls⟩ := related
  simp only at otherContent mode total calls
  rw [content, List.drop_left] at otherContent
  obtain ⟨later, laterValid, laterBytes, fetched⟩ :=
    xorFetch_ok enteredValid takes.length otherContent ()
  refine ⟨other, later, ⟨?_, total, ?_⟩, laterValid, laterBytes, ?_⟩
  · rw [mode, takes.mode]
  · rw [calls, same.calls, takes.calls]
  · cases staged with
    | mk parse world =>
        simp only at enters
        rw [← callHandler_staged]
        simp only [stagedStep, enters, fetched]

/-- The two loops look at the same bytes behind the last body, and leave there in the same way. -/
theorem xorStep_stops {state : ParseState κ} {staged : StagedState κ Unit} {result : ParseResult κ}
    (related : XorRelates parser handlers state staged) (enters : enterPart parser state = .done result) :
    StepsAgree (XorRelates parser handlers) XorAgrees (frameStep parser handlers state)
      (stagedStep parser xorFetch (.ofHandlers handlers) staged) := by
  obtain ⟨valid, otherValid, same, content⟩ := related
  have left : StepsAgree (Entered state.msg.bytes state.calls) (LeftAt state.calls)
      (enterPart parser state)
      (enterBytes parser state.readStartFromMainKey state.totalSize state.msg.bytes) :=
    enterPart_bytes valid
  have right : StepsAgree (Entered staged.parse.msg.bytes staged.parse.calls)
      (LeftAt staged.parse.calls) (enterPart parser staged.parse)
      (enterBytes parser staged.parse.readStartFromMainKey staged.parse.totalSize
        staged.parse.msg.bytes) := enterPart_bytes otherValid
  rw [content, obfuscateFrom_stops enters, same.mode, same.total, same.calls] at right
  rw [enters] at left
  obtain ⟨place, found, leftAt⟩ := left.of_done
  rw [found] at right
  obtain ⟨other, otherEnters, rightAt⟩ := right.done_of
  rw [frameStep_eq, stagedStep, enters, otherEnters]
  refine .done ⟨?_, ?_, ?_⟩
  · rw [rightAt.ending, leftAt.ending]
  · rw [rightAt.calls, leftAt.calls]
  · rw [rightAt.bytes, leftAt.bytes]

/-- One iteration of the decoding loop is one of the plain loop. -/
theorem xorStep_agrees (state : ParseState κ) (staged : StagedState κ Unit)
    (related : XorRelates parser handlers state staged) :
    StepsAgree (XorRelates parser handlers) XorAgrees (frameStep parser handlers state)
      (stagedStep parser xorFetch (.ofHandlers handlers) staged) := by
  cases enters : enterPart parser state with
  | done result => exact xorStep_stops related enters
  | next entry =>
      obtain ⟨valid, otherValid, same, content⟩ := related
      obtain ⟨size, entered⟩ := entry
      obtain ⟨keys, body, msg, takes⟩ := takesBody handlers valid enters
      obtain ⟨tail, changed, length, last, goesOn⟩ := takes.obfuscated
      rw [changed] at content
      obtain ⟨other, later, sameBehind, laterValid, laterBytes, step⟩ :=
        xorStep_body takes otherValid same content length
      have calls := @callHandler_same κ parser handlers _ _ sameBehind size (.received body)
      rw [step]
      cases iteration : frameStep parser handlers state with
      | done result =>
          have behind := last result iteration
          rw [takes.step] at iteration
          rw [iteration] at calls
          obtain ⟨otherResult, otherCall, ending, callsEq, bytes⟩ := calls.of_done
          rw [otherCall]
          refine .done ⟨ending, callsEq, ?_⟩
          change otherResult.msg.bytes = result.msg.bytes
          rcases bytes with dropped | ⟨kept, otherKept⟩
          · rw [dropped.1, dropped.2, MessageBuffer.readAll_bytes, MessageBuffer.readAll_bytes]
          · rw [kept, otherKept]
            exact laterBytes.trans behind
      | next next =>
          have behind := goesOn next iteration
          rw [takes.step] at iteration
          rw [iteration] at calls
          obtain ⟨otherNext, otherCall, sameNext, msgEq, otherMsgEq⟩ := calls.of_next
          rw [otherCall]
          refine .next ⟨?_, ?_, sameNext, ?_⟩
          · rw [msgEq]
            exact takes.valid
          · change otherNext.msg.Valid
            rw [otherMsgEq]
            exact laterValid
          · change otherNext.msg.bytes = _
            rw [otherMsgEq]
            exact laterBytes.trans behind

end

/-! ### The two parsers -/

/-- On a receive buffer in which the bodies have been changed, `packetParser_xor` calls the handlers that
    `packetParser_notUseEnc` calls on the unchanged one, with the same bodies, ends as it does, and leaves
    the same bytes; its passes over a body are one pass with all keys, and undo themselves. -/
theorem xor_parser_agrees (handlers : Handlers LobbyHandler) {msg changed : MessageBuffer}
    (valid : msg.Valid) (changedValid : changed.Valid)
    (content : changed.bytes = obfuscated packetParserNotUseEnc handlers msg) :
    (∃ result, PacketParserXor handlers changed result ∧
      result.ending = (parse packetParserNotUseEnc handlers msg).ending ∧
      result.calls = (parse packetParserNotUseEnc handlers msg).calls ∧
      result.msg.bytes = (parse packetParserNotUseEnc handlers msg).msg.bytes ∧
      changed.size - result.msg.size =
        msg.size - (parse packetParserNotUseEnc handlers msg).msg.size) ∧
    ∀ startBufPos partBodySize buffer,
      xorPasses startBufPos partBodySize buffer = xorPass xorKey startBufPos partBodySize buffer ∧
      xorPasses startBufPos partBodySize (xorPasses startBufPos partBodySize buffer) = buffer := by
  have decreases : Decreases (frameStep packetParserNotUseEnc handlers) (fun state => state.msg.size) :=
    frameStep_decreases
  have related : XorRelates packetParserNotUseEnc handlers (parseEntry msg) ⟨parseEntry changed, ()⟩ :=
    ⟨valid, changedValid, ⟨rfl, rfl, rfl⟩, content⟩
  obtain ⟨⟨result, world⟩, ends, agrees⟩ :=
    (loopEnds_loop decreases (parseEntry msg)).simulation xorStep_agrees related
  have lengths : changed.size = msg.size := by
    have same : changed.bytes.length = msg.bytes.length := by
      rw [content]
      exact obfuscateFrom_length valid
    rw [MessageBuffer.bytes_length, MessageBuffer.bytes_length] at same
    exact same
  have left : result.msg.size = (parse packetParserNotUseEnc handlers msg).msg.size := by
    have same := congrArg List.length agrees.content
    rw [MessageBuffer.bytes_length, MessageBuffer.bytes_length] at same
    exact same
  refine ⟨⟨result, ends, agrees.ending, agrees.calls, agrees.content, ?_⟩, ?_⟩
  · rw [lengths, left]
  · intro startBufPos partBodySize buffer
    exact ⟨xorPasses_eq startBufPos partBodySize buffer,
      xorPasses_twice startBufPos partBodySize buffer⟩

/-- A heartbeat of four bytes, changed on the wire, is handed on as it was. -/
theorem xor_parser_agrees_heartBeat :
    ∃ result, PacketParserXor (lobbyHandlers (fun _ => some ()) true [])
        (.received [8, 0, 255, 255, 4, 0, 243, 255, 89, 90, 90, 90]) result ∧
      result.ending = .returned true ∧ result.calls = [.handler .heartBeat 4 [3, 0, 0, 0]] := by
  have content : (MessageBuffer.received [8, 0, 255, 255, 4, 0, 243, 255, 89, 90, 90, 90]).bytes =
      obfuscated packetParserNotUseEnc (lobbyHandlers (fun _ => some ()) true [])
        (.received [8, 0, 255, 255, 4, 0, 243, 255, 3, 0, 0, 0]) := by decide
  obtain ⟨⟨result, ends, ending, calls, -⟩, -⟩ := xor_parser_agrees
    (lobbyHandlers (fun _ => some ()) true []) (MessageBuffer.received_valid (by decide))
    (MessageBuffer.received_valid (by decide)) content
  refine ⟨result, ends, ?_, ?_⟩
  · rw [ending]
    decide
  · rw [calls]
    decide

end LobbySvr.Proofs
