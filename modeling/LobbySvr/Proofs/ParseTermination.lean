/-
Module: LobbySvr.Proofs.ParseTermination
Layer: Proofs
Purpose: The parse loops end on every input.  What goes round has read a part key and nothing puts bytes back:
  the ciphers get the receive buffer, so for them this is an assumption, and every other step of an
  iteration takes bytes or leaves the buffer alone.
Imports: LobbySvr.Proofs.CipherParsers, LobbySvr.Lobby.PacketParserCipher, LobbySvr.Lobby.PacketParserJson
Trusted boundary: none
Main exports: CiphersAddNothing, cipherFetch_addsNothing, AlwaysLeft, alwaysLeft
Open obligations: none
-/
import LobbySvr.Proofs.CipherParsers
import LobbySvr.Lobby.PacketParserCipher
import LobbySvr.Lobby.PacketParserJson

namespace LobbySvr.Proofs

open LobbySvr.Foundation
open LobbySvr.Net

/-! ### The ciphers -/

section

variable {ω : Type} {ciphers : Ciphers ω} {isSyncEncryptionKey : ω → UInt8 → Bool}

/-- Registered functions that add no bytes to the receive buffer they are given. -/
structure CiphersAddNothing (ciphers : Ciphers ω) : Prop where
  cipherInit : ∀ {encType cipherInit}, (ciphers.cipherHandlers encType).cipherInit = some cipherInit →
    ∀ cipherType size msg world, (cipherInit cipherType size msg world).2.1.size ≤ msg.size
  cipherDec : ∀ {encType cipherDec}, (ciphers.cipherHandlers encType).cipherDec = some cipherDec →
    ∀ cipherType size msg procMsg world,
      (cipherDec cipherType size msg procMsg world).2.1.size ≤ msg.size

theorem syncKeyFetch_goesOn {cipherType : UInt8} {cipherInit : CipherInit ω}
    (adds : ∀ size msg world, (cipherInit cipherType size msg world).2.1.size ≤ msg.size)
    {size : UInt32} {msg later : MessageBuffer} {world after : ω}
    (fetched : syncKeyFetch cipherType cipherInit size msg world = .goesOn later after) :
    later.size ≤ msg.size := by
  have agreed := adds size msg world
  unfold syncKeyFetch at fetched
  split at fetched
  · cases fetched
  · cases fetched
  · rename_i middle between initialised
    rw [initialised] at agreed
    split at fetched
    · split at fetched
      · cases fetched
      · rename_i taken
        have dropped := MessageBuffer.readCount_size taken
        cases fetched
        simp only at agreed
        omega
    · cases fetched

theorem decryptFetch_procMsg {cipherType : UInt8} {cipherDec : Option (CipherDec ω)}
    (adds : ∀ dec, cipherDec = some dec →
      ∀ size msg procMsg world, (dec cipherType size msg procMsg world).2.1.size ≤ msg.size)
    {size : UInt32} {msg later procMsg : MessageBuffer} {world after : ω}
    (fetched : decryptFetch cipherType cipherDec size msg world = .procMsg later procMsg after) :
    later.size ≤ msg.size := by
  unfold decryptFetch at fetched
  split at fetched
  · cases fetched
  · rename_i dec
    have decrypted := adds dec rfl size msg .empty world
    split at fetched
    · cases fetched
    · rename_i middle decoded between ended
      rw [ended] at decrypted
      split at fetched
      · cases fetched
      · rename_i taken
        have dropped := MessageBuffer.readCount_size taken
        split at fetched
        · cases fetched
        · cases fetched
          simp only at decrypted
          omega

theorem decryptFetch_ne_goesOn {cipherType : UInt8} {cipherDec : Option (CipherDec ω)} {size : UInt32}
    {msg later : MessageBuffer} {world after : ω} :
    decryptFetch cipherType cipherDec size msg world ≠ .goesOn later after := by
  unfold decryptFetch
  split
  · nofun
  · split
    · nofun
    · split
      · nofun
      · split
        · nofun
        · nofun

theorem getCipherHandler_registered {encType : UInt8} {cipherData : EncParameters ω}
    (found : ciphers.getCipherHandler encType = .ok cipherData) :
    cipherData = ciphers.cipherHandlers encType := by
  unfold Ciphers.getCipherHandler at found
  split at found
  · cases found
  · cases found
    rfl

/-- The functions that the parser comes to call are registered ones. -/
theorem cipherPath_registered {world : ω} {path : CipherPath ω}
    (taken : cipherPath ciphers isSyncEncryptionKey world = .ok path) :
    ∃ encType,
      (∀ cipherType cipherInit, path = .syncKey cipherType cipherInit →
        (ciphers.cipherHandlers encType).cipherInit = some cipherInit) ∧
      ∀ cipherType cipherDec, path = .decrypt cipherType cipherDec →
        (ciphers.cipherHandlers encType).cipherDec = cipherDec := by
  unfold cipherPath at taken
  generalize (if ciphers.userCipherType = notSetCipherValue then encAes128Cbc
    else ciphers.userCipherType.toUInt8) = selected at taken
  cases found : ciphers.getCipherHandler selected with
  | error fault =>
      simp only [found] at taken
      cases taken
  | ok cipherData =>
      simp only [found] at taken
      obtain rfl := getCipherHandler_registered found
      refine ⟨selected, ?_⟩
      split at taken
      · cases taken
        exact ⟨nofun, nofun⟩
      · rename_i registered
        split at taken
        · cases taken
        · split at taken
          · cases taken
            refine ⟨?_, nofun⟩
            intro _ _ same
            cases same
            exact registered
          · split at taken
            · cases taken
              exact ⟨nofun, nofun⟩
            · cases taken
              refine ⟨nofun, ?_⟩
              intro _ _ same
              cases same
              rfl

/-- The stage of the parsers with a cipher table adds nothing when the registered functions do not. -/
theorem cipherFetch_addsNothing (adds : CiphersAddNothing ciphers) :
    AddsNothing (cipherFetch ciphers isSyncEncryptionKey) where
  procMsg := by
    intro size msg world later procMsg after fetched
    unfold cipherFetch at fetched
    split at fetched
    · cases fetched
    · exact plainFetch_addsNothing.procMsg fetched
    · exact absurd fetched (syncKeyFetch_ne_procMsg _ _ _ _ _ _ _ _)
    · exact plainFetch_addsNothing.procMsg fetched
    · rename_i cipherType cipherDec path
      obtain ⟨encType, -, registered⟩ := cipherPath_registered path
      apply decryptFetch_procMsg _ fetched
      intro dec same
      exact adds.cipherDec ((registered _ _ rfl).trans same) cipherType
  goesOn := by
    intro size msg world later after fetched
    unfold cipherFetch at fetched
    split at fetched
    · cases fetched
    · exact plainFetch_addsNothing.goesOn fetched
    · rename_i cipherType cipherInit path
      obtain ⟨encType, registered, -⟩ := cipherPath_registered path
      exact syncKeyFetch_goesOn (adds.cipherInit (registered _ _ rfl) cipherType) fetched
    · exact plainFetch_addsNothing.goesOn fetched
    · exact absurd fetched decryptFetch_ne_goesOn

end

/-! ### The parsers -/

/-- A parse loop that is left on every input, because each iteration that goes round again leaves the receive
    buffer at least four bytes shorter. -/
structure AlwaysLeft {κ ω : Type} (parser : FrameParser κ) (fetch : Fetch ω)
    (surroundings : Surroundings κ ω) : Prop where
  shortens : ∀ state later, stagedStep parser fetch surroundings state = .next later →
    later.parse.msg.size + 4 ≤ state.parse.msg.size
  ends : ∀ msg world, ∃ result, StagedParse parser fetch surroundings msg world result

theorem alwaysLeft {κ ω : Type} (parser : FrameParser κ) {fetch : Fetch ω} (adds : AddsNothing fetch)
    (surroundings : Surroundings κ ω) : AlwaysLeft parser fetch surroundings where
  shortens := by
    intro state later went
    exact stagedStep_shortens adds went
  ends := by
    intro msg world
    have decreases : Decreases (stagedStep parser fetch surroundings) (fun state => state.parse.msg.size) :=
      stagedStep_decreases adds
    exact ⟨_, loopEnds_loop decreases ⟨parseEntry msg, world⟩⟩

/-- A cipher whose agreement takes the first byte of the body, and which decrypts to the packet code 1. -/
def frugalCiphers : Ciphers Unit where
  userCipherType := 1
  cipherHandlers _ :=
    ⟨1,
      some fun _ _ msg world =>
        match msg.readCount 1 with
        | .error fault => (.error fault, msg, world)
        | .ok msg => (.ok true, msg, world),
      some fun _ _ msg _ world => (none, msg, .received [1, 0, 0, 0], world)⟩

theorem frugalCiphers_addNothing : CiphersAddNothing frugalCiphers where
  cipherInit := by
    intro encType cipherInit registered cipherType size msg world
    cases registered
    simp only
    split
    · exact Nat.le_refl _
    · rename_i taken
      have dropped := MessageBuffer.readCount_size taken
      simp only
      omega
  cipherDec := by
    intro encType cipherDec registered cipherType size msg procMsg world
    cases registered
    exact Nat.le_refl _

/-- The loops of the two parsers with a cipher table and of the two parsers with plain keys are left on every
    input, whatever the packet handlers do. -/
theorem parse_loops_end {η ω : Type} (ciphers : Ciphers ω) (adds : CiphersAddNothing ciphers)
    (isSyncEncryptionKey : ω → UInt8 → Bool) (memberFuncMap staticFuncMap : MsgMap η)
    (surroundings : Surroundings (MapHandler η) ω)
    (lobbySurroundings : Surroundings Lobby.LobbyHandler ω)
    (brokerSurroundings : Surroundings Lobby.BrokerHandler ω) :
    AlwaysLeft (packetParser memberFuncMap staticFuncMap) (cipherFetch ciphers isSyncEncryptionKey)
        surroundings ∧
      AlwaysLeft (Lobby.packetParser memberFuncMap staticFuncMap)
        (cipherFetch ciphers isSyncEncryptionKey) surroundings ∧
      AlwaysLeft Lobby.packetParserNotUseEncTest plainFetch lobbySurroundings ∧
      AlwaysLeft Lobby.packetParserBrokerTest plainFetch brokerSurroundings :=
  ⟨alwaysLeft _ (cipherFetch_addsNothing adds) surroundings,
    alwaysLeft _ (cipherFetch_addsNothing adds) surroundings,
    alwaysLeft _ plainFetch_addsNothing lobbySurroundings,
    alwaysLeft _ plainFetch_addsNothing brokerSurroundings⟩

/-- The loops with a cipher that shortens the receive buffer, and handlers that change nothing. -/
theorem parse_loops_end_frugal :
    CiphersAddNothing frugalCiphers ∧
      AlwaysLeft (packetParser (fun packetCode => if packetCode = 1 then some () else none) fun _ => none)
        (cipherFetch frugalCiphers fun _ _ => true)
        ⟨fun _ _ _ world => (none, world), fun _ world => (none, world)⟩ :=
  ⟨frugalCiphers_addNothing,
    (parse_loops_end frugalCiphers frugalCiphers_addNothing (fun _ _ => true)
      (fun packetCode => if packetCode = 1 then some () else none) (fun _ => none)
      ⟨fun _ _ _ world => (none, world), fun _ world => (none, world)⟩
      ⟨fun _ _ _ world => (none, world), fun _ world => (none, world)⟩
      ⟨fun _ _ _ world => (none, world), fun _ world => (none, world)⟩).1⟩

end LobbySvr.Proofs
