import Mathlib.Data.List.Basic
import Tun2SocksWinRT.BAddr

namespace Tun2SocksWinRT

namespace BSocksClient

/-!
# `BSocksClient`: the shadowsocks stream

`socksclient/BSocksClient.c` talks shadowsocks to the server over one
connection.  On the way up, `encrypt_handler` encrypts each chunk the user
sends into a fresh `cipher_buffer` of twice the chunk's length; the first
chunk is preceded by the IV and the encrypted SOCKS address header
(`build_header`).  `up_handler_done` reports the whole chunk done and frees
the buffer.  On the way down, `decrypt_handler` receives into a fresh
`socks_recv_buf` as long as the user's buffer, and `down_handler_done` takes
the server's IV from the start of the first completion and decrypts the rest
into the user's buffer.

The cipher is a parameter: an OpenSSL context started with an IV and updated
with input (`StreamCipher`).  For a synchronous stream cipher an update maps
an input to an output of the same length (`LengthPreserving`), which is all
the results below use.  A heap block records the bytes `BAlloc` gave it and
the bytes written into it from its start.
-/

/--
An OpenSSL cipher context as `cryptoman.c` drives it: `start` is
`encryptor_Init`/`decryptor_Init` with an IV, `update` one
`EVP_EncryptUpdate`/`EVP_DecryptUpdate` giving the next context and the output.
-/
structure StreamCipher (Context : Type) where
  start : List UInt8 → Context
  update : Context → List UInt8 → Context × List UInt8

/-- A synchronous stream cipher's update maps an input to an output of the same length. -/
def StreamCipher.LengthPreserving {Context : Type} (cipher : StreamCipher Context) : Prop :=
  ∀ context input, (cipher.update context input).2.length = input.length

/-- `SOCKS_ATYP_IPV4`. -/
def socksAtypIpv4 : UInt8 := 0x01

/-- `SOCKS_ATYP_IPV6`. -/
def socksAtypIpv6 : UInt8 := 0x04

/--
`build_header`: a `struct socks_request_header` holding the address type,
then `struct socks_addr_ipv4` or `struct socks_addr_ipv6`.
-/
def buildHeader : BAddr → List UInt8
  | .ipv4 ip port => socksAtypIpv4 :: (ip.toList ++ port.toList)
  | .ipv6 ip port => socksAtypIpv6 :: (ip.toList ++ port.toList)

/-- The header is 1 + 6 bytes for IPv4 and 1 + 18 for IPv6. -/
theorem length_buildHeader (destination : BAddr) :
    (buildHeader destination).length =
      match destination with
      | .ipv4 _ _ => 7
      | .ipv6 _ _ => 19 := by
  cases destination <;> simp [buildHeader]

/-- A heap block: the bytes `BAlloc` gave it and the bytes written into it from its start. -/
structure HeapBlock where
  size : Nat
  written : List UInt8

/-- Every write stayed within the block. -/
def HeapBlock.InBounds (block : HeapBlock) : Prop :=
  block.written.length ≤ block.size

/-! ## The way up -/

/-- The send side of a `BSocksClient`. -/
structure Sender (Context : Type) where
  firstPacketSent : Bool
  encryptor : Context
  plainLen : Nat
  cipherBuffer : Option HeapBlock

variable {Context : Type}

/--
`encrypt_handler` with `BAlloc` succeeding and `random_iv` giving `freshIv`:
the new state and the bytes passed to `StreamPassInterface_Sender_Send` on
the connection (`cipher_buffer`, `cipher_buf_len` of them).
-/
def encryptHandler
    (cipher : StreamCipher Context)
    (ivLen : Nat)
    (header : List UInt8)
    (freshIv : List UInt8)
    (o : Sender Context)
    (data : List UInt8) :
    Sender Context × List UInt8 :=
  -- allocate cipher buffer
  let size := data.length * 2
  -- IV and header only need in the first packet
  let (o, ivAndHeader) :=
    if o.firstPacketSent = false then
      let iv := freshIv.take ivLen
      let (encryptor, encryptedHeader) := cipher.update (cipher.start iv) header
      ({ o with encryptor, firstPacketSent := true }, iv ++ encryptedHeader)
    else
      (o, [])
  let (encryptor, encryptedData) := cipher.update o.encryptor data
  let written := ivAndHeader ++ encryptedData
  ({ o with encryptor, plainLen := data.length, cipherBuffer := some ⟨size, written⟩ }, written)

/--
`up_handler_done`: the connection sent `_dataLen` bytes of `cipher_buffer`.
It reports `plain_len` bytes done to the user and frees the buffer; the
length sent is not read.
-/
def upHandlerDone (o : Sender Context) (_dataLen : Nat) : Sender Context × Nat :=
  ({ o with plainLen := 0, cipherBuffer := none }, o.plainLen)

section Up

variable
  (cipher : StreamCipher Context)
  (lengthPreserving : cipher.LengthPreserving)
  (ivLen : Nat)
  (header freshIv : List UInt8)
  (o : Sender Context)
  (data : List UInt8)

/-- `encrypt_handler` on the first chunk: it writes the IV, the encrypted header and the encrypted chunk. -/
theorem encryptHandler_of_first (first : o.firstPacketSent = false) :
    (encryptHandler cipher ivLen header freshIv o data).2 =
      freshIv.take ivLen ++ (cipher.update (cipher.start (freshIv.take ivLen)) header).2 ++
        (cipher.update (cipher.update (cipher.start (freshIv.take ivLen)) header).1 data).2 ∧
    (encryptHandler cipher ivLen header freshIv o data).1.cipherBuffer =
      some ⟨data.length * 2, (encryptHandler cipher ivLen header freshIv o data).2⟩ ∧
    (encryptHandler cipher ivLen header freshIv o data).1.plainLen = data.length := by
  unfold encryptHandler
  rw [if_pos first]
  exact ⟨rfl, rfl, rfl⟩

include lengthPreserving in
/-- The first chunk is written after the IV and the encrypted header. -/
theorem length_encryptHandler_of_first
    (ivFits : ivLen ≤ freshIv.length)
    (first : o.firstPacketSent = false) :
    (encryptHandler cipher ivLen header freshIv o data).2.length =
      ivLen + header.length + data.length := by
  obtain ⟨written, _, _⟩ := encryptHandler_of_first cipher ivLen header freshIv o data first
  rw [written, List.length_append, List.length_append, lengthPreserving, lengthPreserving,
    List.length_take]
  omega

/--
The way up overruns `cipher_buffer` and loses data.  For every
length-preserving cipher, a first chunk shorter than the IV and the header
together is written, with them, past the end of its `data_len * 2`-byte
`cipher_buffer`; and when the connection sends only part of the ciphertext,
the user is still told the whole chunk is done and the buffer is freed, so the
rest is never sent.
-/
theorem encryptHandler_overruns_and_drops
    (lengthPreserving : cipher.LengthPreserving)
    (ivFits : ivLen ≤ freshIv.length)
    (first : o.firstPacketSent = false)
    (short : data.length < ivLen + header.length) :
    (∃ block, (encryptHandler cipher ivLen header freshIv o data).1.cipherBuffer = some block ∧
      ¬ block.InBounds) ∧
    ∀ sent < (encryptHandler cipher ivLen header freshIv o data).2.length,
      (upHandlerDone (encryptHandler cipher ivLen header freshIv o data).1 sent).2 = data.length ∧
      (upHandlerDone (encryptHandler cipher ivLen header freshIv o data).1 sent).1.cipherBuffer =
        none := by
  obtain ⟨_, buffer, plain⟩ := encryptHandler_of_first cipher ivLen header freshIv o data first
  have written :=
    length_encryptHandler_of_first cipher lengthPreserving ivLen header freshIv o data ivFits first
  refine ⟨⟨_, buffer, ?_⟩, fun sent _ => ⟨plain, rfl⟩⟩
  -- the block holds `data_len * 2` bytes and was written `iv + header + data_len` deep
  show ¬ (encryptHandler cipher ivLen header freshIv o data).2.length ≤ data.length * 2
  omega

end Up

/-- The identity cipher: a (degenerate) synchronous stream cipher. -/
def plainCipher : StreamCipher Unit :=
  ⟨fun _ => (), fun _ input => ((), input)⟩

theorem plainCipher_lengthPreserving : plainCipher.LengthPreserving :=
  fun _ _ => rfl

/--
An IPv4 destination, a 16-byte IV (`EVP_MAX_IV_LENGTH`) and a first chunk of
one byte: 24 bytes go into a 2-byte `cipher_buffer`.
-/
theorem encryptHandler_overruns_one_byte :
    plainCipher.LengthPreserving ∧
      ∃ block,
        (encryptHandler plainCipher 16 (buildHeader (.ipv4 ⟨#[1, 2, 3, 4], rfl⟩ ⟨#[0, 80], rfl⟩))
          (List.replicate 16 0) ⟨false, (), 0, none⟩ [42]).1.cipherBuffer = some block ∧
        ¬ block.InBounds :=
  ⟨plainCipher_lengthPreserving,
    (encryptHandler_overruns_and_drops plainCipher 16 _ _ _ [42] plainCipher_lengthPreserving
      (by simp) rfl (by simp [buildHeader])).1⟩

/-! ## The way down -/

/-- The receive side of a `BSocksClient`. -/
structure Receiver (Context : Type) where
  firstPacketRecved : Bool
  decryptor : Context
  remoteIv : List UInt8
  socksRecvBuf : Option HeapBlock

/--
`decrypt_handler` with `BAlloc` succeeding: the user asked for `dataLen`
bytes, and `socks_recv_buf` gets as many; the connection is asked for them.
-/
def decryptHandler (o : Receiver Context) (dataLen : Nat) : Receiver Context :=
  { o with socksRecvBuf := some ⟨dataLen, []⟩ }

/--
`down_handler_done`: the connection wrote `received` at the start of
`socks_recv_buf`.  Returns the new state, how many bytes from the start of
`socks_recv_buf` it reads, and the plaintext whose length goes to
`StreamRecvInterface_Done`.  The IV is copied from the first `ss_iv_len`
bytes of the buffer whatever was received.  When fewer bytes than the IV were
received, `data_len - iv_size` is negative and `EVP_DecryptUpdate` is given a
negative length; the model then decrypts nothing.
-/
def downHandlerDone
    (cipher : StreamCipher Context)
    (ivLen : Nat)
    (o : Receiver Context)
    (received : List UInt8) :
    Receiver Context × Nat × List UInt8 :=
  let (o, ivSize) :=
    if o.firstPacketRecved = false then
      -- memcpy(o->ss_remote_iv, o->socks_recv_buf, o->ss_iv_len)
      let remoteIv := received.take ivLen
      ({ o with remoteIv, decryptor := cipher.start remoteIv, firstPacketRecved := true }, ivLen)
    else
      (o, 0)
  let (decryptor, plain) := cipher.update o.decryptor (received.drop ivSize)
  ({ o with decryptor, socksRecvBuf := none }, max ivSize received.length, plain)

/-- `down_handler_done` on the first completion reads the IV, then decrypts what follows it. -/
theorem downHandlerDone_of_first
    (cipher : StreamCipher Context)
    (ivLen : Nat)
    (o : Receiver Context)
    (first : o.firstPacketRecved = false)
    (received : List UInt8) :
    (downHandlerDone cipher ivLen o received).2 =
      (max ivLen received.length,
        (cipher.update (cipher.start (received.take ivLen)) (received.drop ivLen)).2) := by
  unfold downHandlerDone
  rw [if_pos first]

/--
The way down reads past `socks_recv_buf` and passes empty chunks.  For every
length-preserving cipher, on the first completion of a Recv of `dataLen` bytes
with `received` (`1 ≤ |received| ≤ dataLen`): when the user's buffer is shorter
than the IV, the IV copy reads past the `dataLen` bytes `decrypt_handler`
allocated; and when exactly the IV was received, zero bytes go to
`StreamRecvInterface_Done`, which asserts a positive length.
-/
theorem downHandlerDone_first
    (cipher : StreamCipher Context)
    (lengthPreserving : cipher.LengthPreserving)
    (ivLen : Nat)
    (o : Receiver Context)
    (first : o.firstPacketRecved = false)
    (dataLen : Nat)
    (received : List UInt8) :
    (dataLen < ivLen →
      ∃ block, (decryptHandler o dataLen).socksRecvBuf = some block ∧
        block.size < (downHandlerDone cipher ivLen (decryptHandler o dataLen) received).2.1) ∧
    (received.length = ivLen →
      (downHandlerDone cipher ivLen (decryptHandler o dataLen) received).2.2.length = 0) := by
  have stillFirst : (decryptHandler o dataLen).firstPacketRecved = false := first
  rw [downHandlerDone_of_first cipher ivLen _ stillFirst received]
  refine ⟨fun shortBuffer => ⟨_, rfl, ?_⟩, fun exactlyIv => ?_⟩
  · show dataLen < max ivLen received.length
    omega
  · show (cipher.update _ (received.drop ivLen)).2.length = 0
    rw [lengthPreserving, List.length_drop, exactlyIv, Nat.sub_self]

/--
A 16-byte IV: a Recv of 8 bytes reads 16 bytes of its 8-byte
`socks_recv_buf`, and a first completion of just the 16-byte IV passes an
empty chunk.
-/
theorem downHandlerDone_iv_only :
    plainCipher.LengthPreserving ∧
      (∃ block, (decryptHandler ⟨false, (), [], none⟩ 8).socksRecvBuf = some block ∧
        block.size <
          (downHandlerDone plainCipher 16 (decryptHandler ⟨false, (), [], none⟩ 8)
            (List.replicate 8 0)).2.1) ∧
      (downHandlerDone plainCipher 16 (decryptHandler ⟨false, (), [], none⟩ 16)
        (List.replicate 16 0)).2.2.length = 0 :=
  ⟨plainCipher_lengthPreserving,
    (downHandlerDone_first plainCipher plainCipher_lengthPreserving 16 ⟨false, (), [], none⟩ rfl 8
      (List.replicate 8 0)).1 (by decide),
    (downHandlerDone_first plainCipher plainCipher_lengthPreserving 16 ⟨false, (), [], none⟩ rfl 16
      (List.replicate 16 0)).2 (by simp)⟩

end BSocksClient

end Tun2SocksWinRT
