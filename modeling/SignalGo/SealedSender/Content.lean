import SignalGo.SealedSender.Certificates

/-!
# Sealed sender: content

The message inside a sealed-sender envelope: the sender's certificate, the type of the message, its
bytes, a hint and the id of a group. `parse_newContent` says that the bytes of a content that was
built are read back as it is.
-/

namespace SignalGo.SealedSender

variable (s : Primitives) (w : SealedWire)

/-! ## Types and hints -/

abbrev MessageType := UInt32

def messageTypePreKey : MessageType := 1
def messageTypeSignal : MessageType := 2
def messageTypeSenderKey : MessageType := 7
def messageTypePlaintext : MessageType := 8

/-- The number is cut to 32 bits before it is looked at. -/
def parseMessageType (raw : UInt64) : Except Err MessageType :=
  if raw.toUInt32 ∈ [messageTypePreKey, messageTypeSignal, messageTypeSenderKey,
      messageTypePlaintext] then .ok raw.toUInt32
  else .error (invalid s!"unsupported message type {raw}")

abbrev ContentHint := UInt32

def contentHintDefault : ContentHint := 0

/-- Hints that are not known are kept as they are. -/
def parseContentHint (raw : UInt64) : ContentHint := raw.toUInt32

/-! ## Content -/

structure UnidentifiedSenderMessageContent where
  serialized : Bytes
  sender : SenderCertificate
  msgType : MessageType
  content : Bytes
  contentHint : ContentHint
  groupID : Bytes
  groupIDValid : Bool
  deriving DecidableEq

structure ContentFields where
  msgType : Option MessageType
  sender : Option SenderCertificate
  content : Option Bytes
  hint : ContentHint
  groupID : Bytes
  groupIDSeen : Bool

def contentField : FieldStep ContentFields Err := fun m num typ data =>
  match num with
  | 1 => do
      let (val, rest) ← varintField w.toProtowire (invalid "sealed sender type")
        (invalid "sealed sender type") typ data
      let parsed ← parseMessageType val
      return ({ m with msgType := some parsed }, rest)
  | 2 => do
      let (val, rest) ← rawField w.toProtowire "sealed sender certificate" typ data
      let cert ← parseSenderCertificate s w val
      return ({ m with sender := some cert }, rest)
  | 3 => do
      let (val, rest) ← rawField w.toProtowire "sealed sender content" typ data
      return ({ m with content := some val }, rest)
  | 4 => do
      let (val, rest) ← varintField w.toProtowire (invalid "sealed sender content hint type")
        (invalid "sealed sender content hint") typ data
      return ({ m with hint := parseContentHint val }, rest)
  | 5 => do
      let (val, rest) ← rawField w.toProtowire "sealed sender group id" typ data
      return ({ m with groupID := val, groupIDSeen := true }, rest)
  | _ => do
      let rest ← unknownField w "sealed sender content field" num typ data
      return (m, rest)

def contentFieldsEmpty : ContentFields where
  msgType := none
  sender := none
  content := none
  hint := contentHintDefault
  groupID := []
  groupIDSeen := false

def parseUnidentifiedSenderMessageContent (data : Bytes) :
    Except Err UnidentifiedSenderMessageContent :=
  if data.isEmpty then .error (invalid "sealed sender content empty")
  else do
    let m ← decodeFields w.toProtowire (invalid "sealed sender content tag") (contentField s w)
      contentFieldsEmpty data
    match m.msgType, m.sender, m.content with
    | some msgType, some sender, some content =>
        return {
          serialized := data
          sender, msgType, content
          contentHint := m.hint
          groupID := m.groupID
          groupIDValid := m.groupIDSeen }
    | _, _, _ => .error (invalid "sealed sender content missing fields")

/-- The bytes `NewUnidentifiedSenderMessageContent` makes: the default hint and an empty group id
are left out. -/
def encodeContent (msgType : MessageType) (sender : SenderCertificate) (content : Bytes)
    (hint : ContentHint) (groupID : Bytes) : Bytes :=
  (w.appendTag 1 .varint ++ w.appendVarint msgType.toUInt64)
    ++ (w.appendTag 2 .bytes ++ w.appendBytes sender.serialized)
    ++ (w.appendTag 3 .bytes ++ w.appendBytes content)
    ++ (if hint ≠ contentHintDefault then w.appendTag 4 .varint ++ w.appendVarint hint.toUInt64
      else [])
    ++ (if !groupID.isEmpty then w.appendTag 5 .bytes ++ w.appendBytes groupID else [])

def newUnidentifiedSenderMessageContent (msgType : MessageType) (sender : SenderCertificate)
    (content : Bytes) (hint : ContentHint) (groupID : Bytes) :
    Except Err UnidentifiedSenderMessageContent := do
  let _ ← parseMessageType msgType.toUInt64
  return {
    serialized := encodeContent w msgType sender content hint groupID
    sender, msgType, content
    contentHint := hint
    groupID
    groupIDValid := !groupID.isEmpty }

/-! ## What is built is read back -/

section RoundTrip

variable {s w} (laws : w.Laws)

include laws

theorem decodes_content {msgType : MessageType} {sender : SenderCertificate} {content : Bytes}
    {hint : ContentHint} {groupID : Bytes}
    (htype : parseMessageType msgType.toUInt64 = .ok msgType)
    (hsender : parseSenderCertificate s w sender.serialized = .ok sender) :
    Decodes w.toProtowire (invalid "sealed sender content tag") (contentField s w)
      (encodeContent w msgType sender content hint groupID) contentFieldsEmpty
      { msgType := some msgType
        sender := some sender
        content := some content
        hint, groupID
        groupIDSeen := !groupID.isEmpty } := by
  have h1 (m : ContentFields) : Decodes w.toProtowire (invalid "sealed sender content tag")
      (contentField s w) (w.appendTag 1 .varint ++ w.appendVarint msgType.toUInt64) m
      { m with msgType := some msgType } :=
    .field laws.toLaws (by decide) fun rest => by
      simp only [contentField, varintField_append laws.toLaws, ok_bind, htype]
      rfl
  have h2 (m : ContentFields) : Decodes w.toProtowire (invalid "sealed sender content tag")
      (contentField s w) (w.appendTag 2 .bytes ++ w.appendBytes sender.serialized) m
      { m with sender := some sender } :=
    .field laws.toLaws (by decide) fun rest => by
      simp only [contentField, rawField_append laws.toLaws, ok_bind, hsender]
      rfl
  have h3 (m : ContentFields) : Decodes w.toProtowire (invalid "sealed sender content tag")
      (contentField s w) (w.appendTag 3 .bytes ++ w.appendBytes content) m
      { m with content := some content } :=
    .field laws.toLaws (by decide) fun rest => by
      simp only [contentField, rawField_append laws.toLaws, ok_bind]
      rfl
  -- A field that is left out is the one the decoder starts with.
  have h4 (m : ContentFields) (hm : m.hint = contentHintDefault) :
      Decodes w.toProtowire (invalid "sealed sender content tag") (contentField s w)
        (if hint ≠ contentHintDefault then w.appendTag 4 .varint ++ w.appendVarint hint.toUInt64
          else []) m { m with hint } := by
    refine .ite (fun _ => ?_) fun hnot => ?_
    · refine .field laws.toLaws (by decide) fun rest => ?_
      simp only [contentField, varintField_append laws.toLaws, ok_bind, parseContentHint,
        UInt32.toUInt32_toUInt64]
      rfl
    · rw [not_not.mp hnot, ← hm]
  have h5 (m : ContentFields) (hm : m.groupID = []) (hseen : m.groupIDSeen = false) :
      Decodes w.toProtowire (invalid "sealed sender content tag") (contentField s w)
        (if !groupID.isEmpty then w.appendTag 5 .bytes ++ w.appendBytes groupID else []) m
        { m with groupID, groupIDSeen := !groupID.isEmpty } := by
    refine .ite (fun hne => ?_) fun hempty => ?_
    · refine .field laws.toLaws (by decide) fun rest => ?_
      simp only [contentField, rawField_append laws.toLaws, ok_bind, hne]
      rfl
    · have hnil : groupID = [] := by simpa using hempty
      obtain ⟨msgType, sender, content, hint, groupID, groupIDSeen⟩ := m
      cases hm
      cases hseen
      rw [hnil]
      rfl
  exact ((((h1 _).trans (h2 _)).trans (h3 _)).trans (h4 _ rfl)).trans (h5 _ rfl rfl)

/-- A content is what its bytes say, if its certificate is. -/
theorem parse_newContent {msgType : MessageType} {sender : SenderCertificate} {content : Bytes}
    {hint : ContentHint} {groupID : Bytes} {usmc : UnidentifiedSenderMessageContent}
    (hsender : parseSenderCertificate s w sender.serialized = .ok sender)
    (h : newUnidentifiedSenderMessageContent w msgType sender content hint groupID = .ok usmc) :
    parseUnidentifiedSenderMessageContent s w usmc.serialized = .ok usmc ∧
    usmc.sender = sender := by
  obtain ⟨parsed, htype, h⟩ := bind_eq_ok.mp h
  cases h
  have hparsed : parseMessageType msgType.toUInt64 = .ok msgType := by
    unfold parseMessageType at htype ⊢
    rw [UInt32.toUInt32_toUInt64] at htype ⊢
    split at htype
    · exact if_pos ‹_›
    · cases htype
  have hne : encodeContent w msgType sender content hint groupID ≠ [] := by
    simp [encodeContent, appendTag_ne_nil laws]
  refine ⟨?_, rfl⟩
  simp only
  rw [parseUnidentifiedSenderMessageContent, if_neg (by rwa [List.isEmpty_iff]),
    (decodes_content laws hparsed hsender).eq, ok_bind]
  rfl

end RoundTrip

end SignalGo.SealedSender
