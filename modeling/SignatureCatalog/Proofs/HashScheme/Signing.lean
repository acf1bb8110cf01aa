import SignatureCatalog.Proofs.Engine.Rounds
import SignatureCatalog.Proofs.HashScheme.Marshalling
import SignatureCatalog.Proofs.Registry.Directed
import SignatureCatalog.Sample.Sha256

/-!
# Signing with the hash scheme, from end to end

A private key signs, and its public half verifies. Between the two lie the search for the owner on
either side, the key info that an engine takes the octets of its key from, and the messages that
arrive in pieces. The private octets are the key's own, but the public ones are a payload, which the
adapter reads again each time it verifies; that it finds there what the signer has used is what
holds the two sides together (`payloadMaterial_payload`).

`SignsAndVerifies` says what the engines answer over any number of messages, and that a verification
through the tables of the handshake comes to the same. Nothing is asked of the hash function but the
length of its values, which keeps the payload within the limit on lengths. A private key may exceed
the limit, and then no engine can be prepared with it.
-/

namespace SignatureCatalog

open Der

variable {ω : Type}

namespace Sample.HashScheme

variable {s : HashScheme} {k : Key KeyBody} {material publicKey : Bytes} {hash : Bytes → Bytes}
  {label : String} {w : ω}

/-! ### Payloads -/

/-- The public key that an adapter verifies with is the one that was written. -/
theorem payloadMaterial_payload (hmax : (s.payload publicKey).length ≤ maxLength) :
    s.payloadMaterial (s.payload publicKey) = .ok publicKey := by
  obtain ⟨oid, encoding⟩ := s
  -- what the adapter reads again is an element in the one case, a key info in the other
  cases encoding with
  | flat =>
    have hread : Decoder.decode (Decoder.typed .octetString Decoder.take)
        (Value.encode ⟨.octetString, publicKey⟩) = .ok publicKey :=
      (Decoder.ExactAtEnd.decode_eq_ok_iff Decoder.exact_octetString.before).mpr
        ⟨⟨Nat.le_trans length_le_encodeTyped hmax, hmax⟩, rfl⟩
    rw [payloadMaterial, payload, hread]
    rfl
  | nested =>
    rw [payloadMaterial, payload,
      SubjectPublicKeyInfo.bijection.decode_encode _ (isEncodable_inner hmax)]
    rfl

/-- Thirty-two octets are far within the limit. -/
theorem length_payload_le (hlength : publicKey.length = 32) :
    (s.payload publicKey).length ≤ maxLength := by
  obtain ⟨oid, encoding⟩ := s
  cases encoding with
  | flat =>
    show (encodeTyped .octetString publicKey).length ≤ maxLength
    rw [length_encodeTyped_of_lt (by omega), hlength]
    decide
  | nested =>
    -- from inside to outside: the bit string, the algorithm beside it, the key info
    have hbits : (encodeTyped .bitString (0 :: publicKey)).length = 35 := by
      rw [length_encodeTyped_of_lt (by rw [List.length_cons]; omega), List.length_cons, hlength]
    have halgorithm : (AlgorithmIdentifier.ofOid innerOid).encode.length = 15 := by decide
    have hcontent : ((AlgorithmIdentifier.ofOid innerOid).encode ++
        encodeTyped .bitString (0 :: publicKey)).length = 50 := by
      rw [List.length_append, halgorithm, hbits]
    show (encodeTyped .sequence ((AlgorithmIdentifier.ofOid innerOid).encode ++
      encodeTyped .bitString (0 :: publicKey))).length ≤ maxLength
    rw [length_encodeTyped_of_lt (by omega), hcontent]
    decide

/-! ### The adapter -/

theorem run_sign (hlength : material.length = 32) (message : Bytes) (w : ω) :
    ((adapter hash s label : Adapter ω KeyBody).sign message material).run w =
      ⟨.ok (hash (hash material ++ message)), w, []⟩ := by
  show (pure (if material.length = 32 then _ else _) : Act _ _ _).run w = _
  rw [if_pos hlength]
  rfl

theorem run_sign_of_ne (hlength : material.length ≠ 32) (message : Bytes) (w : ω) :
    ((adapter hash s label : Adapter ω KeyBody).sign message material).run w =
      ⟨.error (.ofMessage "Invalid private key length"), w, []⟩ := by
  show (pure (if material.length = 32 then _ else _) : Act _ _ _).run w = _
  rw [if_neg hlength]
  rfl

theorem run_verify (hmax : (s.payload publicKey).length ≤ maxLength) (message claimed : Bytes)
    (w : ω) :
    ((adapter hash s label : Adapter ω KeyBody).verify message (s.payload publicKey)
        claimed).run w =
      ⟨.ok (decide (hash (publicKey ++ message) = claimed)), w, []⟩ := by
  show (pure ((s.payloadMaterial (s.payload publicKey)).map fun publicKey =>
    decide (signature hash publicKey message = claimed)) : Act _ _ _).run w = _
  rw [payloadMaterial_payload hmax]
  rfl

/-! ### Engines -/

theorem IsKey.run_askSupports (hk : IsKey k s.oid material) (w : ω) :
    ((adapter hash s label : Adapter ω KeyBody).askSupports k).run w =
      ⟨true, w, [.adapter label .supports]⟩ := by
  rw [Adapter.askSupports, Adapter.run_ask, hk.run_supports]
  rfl

/-- A private key of the scheme prepares an engine for signing, whether or not it has the length to
sign with. -/
theorem IsKey.exists_step_initSign (hk : IsKey k s.oid material) (kind : k.isPrivate = true)
    (hmax : material.length ≤ maxLength) (machine : SigningMachine) (w : ω) :
    ∃ w₁ m, SigningMachine.Step (adapter hash s label) machine w (.initSign k) (.ok .done)
      ⟨.sign material, []⟩ w₁ m := by
  -- the adapter logs nothing and changes nothing, so the call itself is all there is to mark
  have silent : ((adapter hash s label : Adapter ω KeyBody).writePrivateKey k none).run w =
      ⟨.ok (s.privateKeyInfo material none), w, []⟩ := by
    rw [hk.run_writePrivateKey kind, privateKeyInfo?_eq_ok_iff.mpr ⟨hmax, rfl⟩]
  have written := Adapter.run_attempt_of_silent (adapter hash s label) .writePrivateKey silent
  exact ⟨w, _, .initSign_done kind (hk.run_askSupports w) written⟩

/-- The words in which an adapter refuses to write a private key that exceeds the limit. -/
def excess : Failure :=
  (Error.decode ⟨.wrongLength .octetString, none⟩).toFailure

/-- Beyond the limit it prepares none, as an engine takes its key from the key info. -/
theorem IsKey.exists_step_initSign_of_lt (hk : IsKey k s.oid material) (kind : k.isPrivate = true)
    (hexcess : maxLength < material.length) (machine : SigningMachine) (w : ω) :
    ∃ w₁ m, SigningMachine.Step (adapter hash s label) machine w (.initSign k)
      (.error (.adapter excess)) machine w₁ m := by
  have silent : ((adapter hash s label : Adapter ω KeyBody).writePrivateKey k none).run w =
      ⟨.error excess, w, []⟩ := by
    rw [hk.run_writePrivateKey kind, privateKeyInfo?, PrivateKeyInfo.ofOctets?, OctetString.make,
      if_neg (Nat.not_le.mpr hexcess)]
    rfl
  have refused := Adapter.run_attempt_of_silent (adapter hash s label) .writePrivateKey silent
  exact ⟨w, _, .initSign_refused kind (hk.run_askSupports w) refused⟩

/-- A public key of the scheme prepares an engine for verification, which then holds the payload
that would be written for the key. -/
theorem IsKey.exists_step_initVerify (hk : IsKey k s.oid publicKey) (kind : k.isPrivate = false)
    (hmax : (s.payload publicKey).length ≤ maxLength) (machine : SigningMachine) (w : ω) :
    ∃ w₁ m, SigningMachine.Step (adapter hash s label) machine w (.initVerify k) (.ok .done)
      ⟨.verify (s.payload publicKey), []⟩ w₁ m := by
  have silent : ((adapter hash s label : Adapter ω KeyBody).writePublicKey k).run w =
      ⟨.ok (.ofOctets (.ofOid s.oid) (s.payload publicKey)), w, []⟩ := by
    have hpublic : publicMaterial hash k.isPrivate publicKey = publicKey := by
      rw [kind]
      rfl
    rw [hk.run_writePublicKey, hpublic, publicKeyInfo?_eq_ok_iff.mpr ⟨hmax, rfl⟩]
  have written := Adapter.run_attempt_of_silent (adapter hash s label) .writePublicKey silent
  exact ⟨w, _, .initVerify_done kind (hk.run_askSupports w) written rfl⟩

/-- Whatever the adapter answers to a message, a prepared engine passes it on, and goes on to the
next message. -/
theorem exists_step_sign_of_run {message : Bytes} {answer : Except Failure Bytes}
    (silent : ((adapter hash s label : Adapter ω KeyBody).sign message material).run w =
      ⟨answer, w, []⟩) :
    ∃ w₁ m, SigningMachine.Step (adapter hash s label) ⟨.sign material, message⟩ w .sign
      ((answer.mapError .adapter).map .signature) ⟨.sign material, []⟩ w₁ m := by
  have asked := Adapter.run_attempt_of_silent (adapter hash s label) .sign silent
  have step := SigningMachine.Step.sign_done (s := ⟨.sign material, message⟩) rfl asked
  exact ⟨w, _, step⟩

/-- **A prepared engine signs every message**, if the private key has the right length. -/
theorem exists_step_sign (hlength : material.length = 32) (message : Bytes) (w : ω) :
    ∃ w₁ m, SigningMachine.Step (adapter hash s label) ⟨.sign material, message⟩ w .sign
      (.ok (.signature (hash (hash material ++ message)))) ⟨.sign material, []⟩ w₁ m :=
  exists_step_sign_of_run (run_sign hlength message w)

/-- With any other length it signs none. -/
theorem exists_step_sign_of_ne (hlength : material.length ≠ 32) (message : Bytes) (w : ω) :
    ∃ w₁ m, SigningMachine.Step (adapter hash s label) ⟨.sign material, message⟩ w .sign
      (.error (.adapter (.ofMessage "Invalid private key length"))) ⟨.sign material, []⟩ w₁ m :=
  exists_step_sign_of_run (run_sign_of_ne hlength message w)

/-- **A prepared engine knows the signature of every message.** -/
theorem exists_step_verify (hmax : (s.payload publicKey).length ≤ maxLength)
    (message claimed : Bytes) (w : ω) :
    ∃ w₁ m, SigningMachine.Step (adapter hash s label) ⟨.verify (s.payload publicKey), message⟩ w
      (.verify claimed) (.ok (.verdict (hash (publicKey ++ message) = claimed)))
      ⟨.verify (s.payload publicKey), []⟩ w₁ m := by
  have silent : ((adapter hash s label : Adapter ω KeyBody).verify message (s.payload publicKey)
      claimed).run w = _ := run_verify hmax message claimed w
  have asked := Adapter.run_attempt_of_silent (adapter hash s label) .verify silent
  have step := SigningMachine.Step.verify_done
    (s := ⟨.verify (s.payload publicKey), message⟩) rfl asked
  exact ⟨w, _, step⟩

end Sample.HashScheme

/-! ### From end to end -/

namespace Registry

open Sample

variable {r : Registry ω KeyBody} {record : Record ω KeyBody} {k half : Key KeyBody}
  {material : Bytes} {hash : Bytes → Bytes}

/-- **A private key signs and its public half verifies**, by way of one record. Both keys lead to an
engine of the record, which is prepared once and then works through any number of messages, each in
any pieces.

With thirty-two octets the key signs every message. With any other number within the limit on
lengths it prepares the engine all the same, and then every signature is refused; beyond the limit
it does not prepare the engine. The public half accepts exactly the signature of the scheme on the
message, and so do the tables of the handshake with the octets that are written for the key. -/
structure SignsAndVerifies (hash : Bytes → Bytes) (r : Registry ω KeyBody)
    (record : Record ω KeyBody) (k half : Key KeyBody) (material : Bytes) : Prop where
  signer : ∀ w, ((r.signatureEngine k).run w).value = .ok (.new record.name record.adapter)
  verifier : ∀ w, ((r.signatureEngine half).run w).value = .ok (.new record.name record.adapter)
  signs : material.length = 32 → ∀ messages : List (List Bytes),
    (SignatureEngine.new record.name record.adapter).Answers <|
      (.initSign k, .ok .done) :: (messages.map fun pieces =>
        ⟨pieces, .sign, .ok (.signature (hash (hash material ++ pieces.flatten)))⟩).flatMap
          Round.exchanges
  refuses : material.length ≠ 32 → material.length ≤ maxLength → ∀ messages : List (List Bytes),
    (SignatureEngine.new record.name record.adapter).Answers <|
      (.initSign k, .ok .done) :: (messages.map fun pieces =>
        ⟨pieces, .sign, .error (.adapter (.ofMessage "Invalid private key length"))⟩).flatMap
          Round.exchanges
  exceeds : maxLength < material.length →
    (SignatureEngine.new record.name record.adapter).Answers
      [(.initSign k, .error (.adapter HashScheme.excess))]
  verifies : ∀ claims : List (List Bytes × Bytes),
    (SignatureEngine.new record.name record.adapter).Answers <|
      (.initVerify half, .ok .done) :: (claims.map fun claim =>
        ⟨claim.1, .verify claim.2,
          .ok (.verdict (hash (hash material ++ claim.1.flatten) = claim.2))⟩).flatMap
          Round.exchanges
  direct : ∃ info octets, (∀ w, ((r.writePublicKey k).run w).value = .ok info) ∧
    info.keyOctets = .ok octets ∧ ∀ message claimed w,
      ((r.dispatch.verify record.scheme message octets claimed).run w).value =
        .ok (decide (hash (hash material ++ message) = claimed))

/-- The engine for a key of the scheme is that of the record of its scheme. -/
theorem Reachable.value_run_signatureEngine_hashScheme (h : r.Reachable)
    (schemes : ∀ record ∈ r.records, record.HoldsHashScheme hash) (hrecord : record ∈ r.records)
    (hk : HashScheme.IsKey k record.oid material) (w : ω) :
    ((r.signatureEngine k).run w).value = .ok (.new record.name record.adapter) := by
  obtain ⟨howner, -⟩ := h.run_owner_hashScheme schemes hrecord hk w
  rw [signatureEngine, Act.run_andThen_of_ok howner]
  rfl

theorem Reachable.signsAndVerifies (h : r.Reachable) (length_hash : ∀ m, (hash m).length = 32)
    (schemes : ∀ record ∈ r.records, record.HoldsHashScheme hash) (hrecord : record ∈ r.records)
    (hk : HashScheme.IsKey k record.oid material) (kind : k.isPrivate = true)
    (hhalf : HashScheme.publicHalf? hash k = some half) :
    r.SignsAndVerifies hash record k half material := by
  obtain ⟨label, hadapter⟩ := h.exists_adapter_eq hrecord (schemes record hrecord)
  obtain ⟨half', hhalf', kind', hkey⟩ := hk.exists_publicHalf hash
  obtain rfl : half' = half := Option.some.inj (hhalf'.symm.trans hhalf)
  -- the public half has the octets that the signature is made with
  rw [HashScheme.publicMaterial, if_pos kind] at hkey
  have hmax := HashScheme.length_payload_le
    (s := ⟨record.oid, record.publicKeyEncoding⟩) (length_hash material)
  constructor
  case signer => exact h.value_run_signatureEngine_hashScheme schemes hrecord hk
  case verifier => exact h.value_run_signatureEngine_hashScheme schemes hrecord hkey
  case signs =>
    intro hlength messages
    -- thirty-two octets are within the limit, so the key info is written
    have hmax : material.length ≤ maxLength := by
      rw [hlength]
      decide
    rw [hadapter]
    refine SignatureEngine.answers_rounds EngineMode.noConfusion
      (hk.exists_step_initSign kind hmax _) fun round hround w => ?_
    obtain ⟨pieces, -, rfl⟩ := List.mem_map.mp hround
    exact HashScheme.exists_step_sign hlength pieces.flatten w
  case refuses =>
    intro hlength hmax messages
    rw [hadapter]
    refine SignatureEngine.answers_rounds EngineMode.noConfusion
      (hk.exists_step_initSign kind hmax _) fun round hround w => ?_
    obtain ⟨pieces, -, rfl⟩ := List.mem_map.mp hround
    exact HashScheme.exists_step_sign_of_ne hlength pieces.flatten w
  case exceeds =>
    intro hexcess
    rw [hadapter]
    exact SignatureEngine.answers_step (hk.exists_step_initSign_of_lt kind hexcess _)
  case verifies =>
    intro claims
    rw [hadapter]
    -- the engine holds the payload, from which each verification takes the octets anew
    refine SignatureEngine.answers_rounds EngineMode.noConfusion
      (hkey.exists_step_initVerify kind' hmax _) fun round hround w => ?_
    obtain ⟨claim, -, rfl⟩ := List.mem_map.mp hround
    exact HashScheme.exists_step_verify hmax claim.1.flatten claim.2 w
  case direct =>
    have arrives := h.publicHalfArrives schemes hrecord hk hhalf
    -- the tables lead to the record by its code point, and its adapter reads the payload itself
    rw [HashScheme.publicMaterial, if_pos kind] at arrives
    refine ⟨_, HashScheme.payload ⟨record.oid, record.publicKeyEncoding⟩ (hash material),
      fun w => (arrives.written_iff w _).mpr ⟨hmax, rfl⟩, rfl, fun message claimed w => ?_⟩
    refine (((h.serves hrecord).verify message _ claimed).ok_iff w _).mpr ?_
    rw [hadapter, HashScheme.run_verify hmax]

/-- **Keys of the hash scheme sign and verify**, in any registry of its variants, with any hash
function of thirty-two octets. -/
theorem keys_sign_and_verify (length_hash : ∀ m, (hash m).length = 32)
    (history : List (Change ω KeyBody × ω))
    (schemes : ∀ record ∈ (ofHistory history).records, record.HoldsHashScheme hash)
    (hrecord : record ∈ (ofHistory history).records)
    (hk : HashScheme.IsKey k record.oid material) (kind : k.isPrivate = true) :
    ∃ half, HashScheme.publicHalf? hash k = some half ∧
      (ofHistory history).SignsAndVerifies hash record k half material := by
  obtain ⟨half, hhalf, -, -⟩ := hk.exists_publicHalf hash
  exact ⟨half, hhalf,
    (reachable_ofHistory history).signsAndVerifies length_hash schemes hrecord hk kind hhalf⟩

/-- With SHA-256 and nested payloads: two messages are signed, one of them in two pieces, and its
signature is accepted for the message in one piece. -/
theorem keys_sign_and_verify_sha256 :
    let identity : Identity := ⟨"XYZ-SIG", ⟨[0x2a, 0x03, 0x04]⟩, ⟨0xfeb3⟩⟩
    let adapter : Adapter Unit KeyBody :=
      HashScheme.adapter Sha256.digest ⟨identity.oid, .nested⟩ "xyz"
    let material : Bytes := List.replicate 32 7
    let k := (HashScheme.key identity.oid true material).untagged
    let half := (HashScheme.key identity.oid false (Sha256.digest material)).untagged
    let signature (message : Bytes) := Sha256.digest (Sha256.digest material ++ message)
    let engine : SignatureEngine Unit KeyBody := .new identity.name adapter
    engine.Answers [(.initSign k, .ok .done), (.update [1], .ok .done), (.update [2], .ok .done),
        (.sign, .ok (.signature (signature [1, 2]))), (.sign, .ok (.signature (signature [])))] ∧
      engine.Answers [(.initVerify half, .ok .done), (.update [1, 2], .ok .done),
        (.verify (signature [1, 2]), .ok (.verdict true))] := by
  intro identity adapter material k half signature engine
  let record : Record Unit KeyBody := ⟨identity, adapter, .nested⟩
  have schemes : ∀ a ∈ (ofHistory [(.register identity adapter, ())]).records,
      a.HoldsHashScheme Sha256.digest := by
    intro a ha
    rw [List.mem_singleton.mp ha]
    exact ⟨.nested, "xyz", rfl⟩
  have hrecord : record ∈ (ofHistory [(.register identity adapter, ())]).records :=
    List.mem_cons_self
  obtain ⟨half', hhalf, agree⟩ := keys_sign_and_verify (k := k) Sha256.length_digest
    [(.register identity adapter, ())] schemes hrecord ⟨rfl, nofun⟩ rfl
  obtain rfl : half = half' := Option.some.inj hhalf
  -- the verdict is generalised, so that no hash is computed to compare it with itself
  have verified (valid : Bool) (hvalid : decide (signature [1, 2] = signature [1, 2]) = valid) :
      engine.Answers [(.initVerify half, .ok .done), (.update [1, 2], .ok .done),
        (.verify (signature [1, 2]), .ok (.verdict valid))] := by
    subst hvalid
    exact agree.verifies [([[1, 2]], signature [1, 2])]
  exact ⟨agree.signs rfl [[[1], [2]], []], verified true (decide_eq_true rfl)⟩

end Registry

end SignatureCatalog
