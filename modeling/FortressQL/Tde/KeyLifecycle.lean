import FortressQL.Lib.Runs
import FortressQL.Storage.RoundTrip
import FortressQL.Tde.KeyManage
import Mathlib.Data.Set.Function

/-!
# Keys and ciphertexts over a server's life

Key management runs between page writes. The machine records every call of `tde_encrypt_page`, so
that results can speak of all pages encrypted so far.
-/

namespace FortressQL.Tde.KeyLifecycle

open List hiding Vector
open Elog Lib.ByteStrings Lib.Runs Lib.XorStream Storage.BufPage Storage.BlockAddress
open Storage.BlockIo Storage.RoundTrip Tde.KeyCache Tde.KeyManage Tde.PageCrypt

structure IoConfig where
  settings : PageSettings
  cipher : PageCipher
  tdeEnabled : Bool

def IoConfig.server (config : IoConfig) (keys : KeyState) : Server :=
  { settings := config.settings, cipher := config.cipher, tdeEnabled := config.tdeEnabled
    shmem := keys.shmem }

structure EncryptCall where
  tag : BufferTag
  tdek : Key
  iv : Iv
  plain : Page
  encrypted : Page

structure LifecycleState where
  keys : KeyState
  files : RelationFiles
  calls : List EncryptCall

inductive LifecycleOp where
  | flushBuffer (tag : BufferTag) (bufBlock : Page)
  | generateTablespaceKey (spcOid : Oid) (random : Option Key)
  | rotateMasterKey (generated : Raises Key)
  | keycacheInsert (entry : TdeKeyEntry)
  | restart (unwrapped : Raises Key)

section Machine

variable (config : IoConfig)

def recordedCall (tag : BufferTag) (bufBlock : Page) (tdek : Key) : EncryptCall :=
  let plain := pageSetChecksumCopy config.settings bufBlock tag.blockNum
  { tag := tag
    tdek := tdek
    iv := tdeDerivePageIv config.cipher tdek tag
    plain := plain
    encrypted := xorFrom tdePageHeaderSize (pageKeystream config.cipher tdek tag) plain }

def encryptCall (keys : KeyState) (tag : BufferTag) (bufBlock : Page) : Option EncryptCall :=
  if config.tdeEnabled then (keys.tdek tag.spcOid).map (recordedCall config tag bufBlock)
  else none

def lifecycleStep (state : LifecycleState) : LifecycleOp → LifecycleState
  | .flushBuffer tag bufBlock =>
    match flushBuffer (config.server state.keys) state.files tag bufBlock with
    | .error _ => state
    | .ok files =>
      { state with
        files := files
        calls := state.calls ++ (encryptCall config state.keys tag bufBlock).toList }
  | .generateTablespaceKey spcOid random =>
    { state with keys := (tdeGenerateTablespaceKey state.keys spcOid random).state }
  | .rotateMasterKey generated =>
    { state with keys := (tdeRotateMasterKey state.keys generated).state }
  | .keycacheInsert entry => { state with keys := (insertKey state.keys entry).state }
  | .restart unwrapped => { state with keys := (KeyManage.restart unwrapped).state }

variable (keys : KeyState)

theorem tdek_eq_some_iff (spcOid : Oid) (tdek : Key) :
    keys.tdek spcOid = some tdek ↔
      ∃ cache entry, keys.shmem = some cache ∧ cache.find spcOid = some entry ∧
        entry.key = tdek := by
  unfold KeyState.tdek
  cases keys.shmem with
  | none => simp
  | some cache => simp

theorem encrypt_call_made (tag : BufferTag) (bufBlock : Page) (call : EncryptCall)
    (made : encryptCall config keys tag bufBlock = some call) :
    flushImage (config.server keys) tag bufBlock =
        tdeEncryptPage config.cipher keys.shmem call.plain tag ∧
      tdeEncryptPage config.cipher keys.shmem call.plain tag = .ok call.encrypted := by
  unfold encryptCall at made
  split_ifs at made with enabled
  simp only [Option.map_eq_some_iff] at made
  obtain ⟨tdek, current, rfl⟩ := made
  obtain ⟨cache, entry, attached, found, rfl⟩ := (tdek_eq_some_iff keys _ _).mp current
  rw [attached]
  refine ⟨?_, tde_encrypt_page_cached config.cipher found _⟩
  simp only [flushImage, IoConfig.server, enabled, attached, tdeKeycacheLookup, found]
  rfl

variable (state : LifecycleState)

theorem lifecycle_step_flush (tag : BufferTag) (bufBlock : Page) (tdek : Key)
    (enabled : config.tdeEnabled = true) (current : state.keys.tdek tag.spcOid = some tdek) :
    (lifecycleStep config state (.flushBuffer tag bufBlock)).keys = state.keys ∧
      (lifecycleStep config state (.flushBuffer tag bufBlock)).calls =
        state.calls ++ [recordedCall config tag bufBlock tdek] := by
  have made : encryptCall config state.keys tag bufBlock =
      some (recordedCall config tag bufBlock tdek) := by
    simp [encryptCall, enabled, current]
  obtain ⟨image, encrypted⟩ := encrypt_call_made config state.keys tag bufBlock _ made
  simp [lifecycleStep, flushBuffer, image, encrypted, Except.map, made]

theorem lifecycle_step_calls (op : LifecycleOp) (call : EncryptCall)
    (member : call ∈ (lifecycleStep config state op).calls) :
    call ∈ state.calls ∨ ∃ tag bufBlock, op = .flushBuffer tag bufBlock ∧
      encryptCall config state.keys tag bufBlock = some call := by
  cases op with
  | flushBuffer tag bufBlock =>
    simp only [lifecycleStep] at member
    split at member
    · exact .inl member
    · rcases mem_append.mp member with old | added
      · exact .inl old
      · exact .inr ⟨tag, bufBlock, rfl, Option.mem_toList.mp added⟩
  | generateTablespaceKey spcOid random => exact .inl member
  | rotateMasterKey generated => exact .inl member
  | keycacheInsert entry => exact .inl member
  | restart unwrapped => exact .inl member

def WellRecorded (call : EncryptCall) : Prop :=
  call.iv = tdeDerivePageIv config.cipher call.tdek call.tag ∧
    call.encrypted = xorFrom tdePageHeaderSize
      (pageKeystream config.cipher call.tdek call.tag) call.plain

theorem recorded_call_well_recorded (tag : BufferTag) (bufBlock : Page) (tdek : Key) :
    WellRecorded config (recordedCall config tag bufBlock tdek) := ⟨rfl, rfl⟩

theorem byte_at_recorded_plain (tag : BufferTag) (bufBlock : Page) (tdek : Key) (index : Nat)
    (payload : tdePageHeaderSize ≤ index) (bound : index < blcksz) :
    byteAt (recordedCall config tag bufBlock tdek).plain index = byteAt bufBlock index := by
  have beyond : 24 ≤ index := payload
  exact page_set_checksum_copy_same config.settings bufBlock tag.blockNum index bound (by omega)
    (by omega)

/-- Neither key nor vector depends on the page. -/
theorem recorded_calls_share (tag : BufferTag) (first second : Page) (tdek : Key) :
    ((recordedCall config tag first tdek).tdek, (recordedCall config tag first tdek).iv) =
      ((recordedCall config tag second tdek).tdek, (recordedCall config tag second tdek).iv) :=
  rfl

theorem encrypt_call_well_recorded (tag : BufferTag) (bufBlock : Page) (call : EncryptCall)
    (made : encryptCall config keys tag bufBlock = some call) :
    WellRecorded config call ∧ call.tag = tag ∧ keys.tdek tag.spcOid = some call.tdek := by
  unfold encryptCall at made
  split_ifs at made
  simp only [Option.map_eq_some_iff] at made
  obtain ⟨tdek, current, rfl⟩ := made
  exact ⟨recorded_call_well_recorded config tag bufBlock tdek, rfl, current⟩

theorem run_well_recorded (initial : LifecycleState) (ops : List LifecycleOp)
    (unrecorded : initial.calls = []) :
    ∀ call ∈ (run (lifecycleStep config) initial ops).calls, WellRecorded config call := by
  apply run_invariant_always (lifecycleStep config)
    (fun state => ∀ call ∈ state.calls, WellRecorded config call)
  · intro state op recorded call member
    rcases lifecycle_step_calls config state op call member with old | added
    · exact recorded call old
    · obtain ⟨tag, bufBlock, -, made⟩ := added
      exact (encrypt_call_well_recorded config state.keys tag bufBlock call made).1
  · simp [unrecorded]

/-- Two calls of a run use the same key and vector exactly if they encrypt the same block under the
same key. -/
theorem keystream_pair_shared_iff (initial : LifecycleState) (ops : List LifecycleOp)
    (unrecorded : initial.calls = [])
    (separates : ∀ tdek, Set.InjOn (config.cipher.hkdfSha256 tdePageHkdfLabel tdek)
      {info | ∃ call ∈ (run (lifecycleStep config) initial ops).calls,
        info = pageIvInfo call.tag}) :
    ∀ first ∈ (run (lifecycleStep config) initial ops).calls,
      ∀ second ∈ (run (lifecycleStep config) initial ops).calls,
        (first.tdek, first.iv) = (second.tdek, second.iv) ↔
          first.tdek = second.tdek ∧ first.tag = second.tag := by
  intro first firstMember second secondMember
  have recorded := run_well_recorded config initial ops unrecorded
  have firstIv := (recorded first firstMember).1
  have secondIv := (recorded second secondMember).1
  constructor
  · intro shared
    obtain ⟨sameKey, sameIv⟩ := Prod.mk.inj shared
    refine ⟨sameKey, page_iv_info_injective ?_⟩
    rw [firstIv, secondIv, ← sameKey] at sameIv
    exact separates first.tdek ⟨first, firstMember, rfl⟩ ⟨second, secondMember, rfl⟩ sameIv
  · intro same
    rw [firstIv, secondIv, same.1, same.2]

def sampleConfig : IoConfig :=
  { settings := sampleServer.settings, cipher := sampleCipher, tdeEnabled := true }

def sampleState : LifecycleState :=
  { keys := { masterKey := some (Vector.replicate tdeAesKeyLen 1), shmem := some .empty }
    files := fun _ => none
    calls := [] }

def sampleKeyed : LifecycleState :=
  lifecycleStep sampleConfig sampleState (.generateTablespaceKey 1663 (some sampleEntry.key))

theorem sample_keyed_tdek : sampleKeyed.keys.tdek 1663 = some sampleEntry.key := rfl

/-- A page is written, and one more operation follows. -/
def sampleRun (op : LifecycleOp) : LifecycleState :=
  run (lifecycleStep sampleConfig) sampleKeyed [.flushBuffer sampleTag (pageInit 0), op]

theorem sample_flush :
    (lifecycleStep sampleConfig sampleKeyed (.flushBuffer sampleTag (pageInit 0))).keys =
        sampleKeyed.keys ∧
      (lifecycleStep sampleConfig sampleKeyed (.flushBuffer sampleTag (pageInit 0))).calls =
        [recordedCall sampleConfig sampleTag (pageInit 0) sampleEntry.key] :=
  lifecycle_step_flush sampleConfig sampleKeyed sampleTag _ _ rfl sample_keyed_tdek

theorem sample_two_flushes (second : Page) :
    (sampleRun (.flushBuffer sampleTag second)).calls =
      [recordedCall sampleConfig sampleTag (pageInit 0) sampleEntry.key,
        recordedCall sampleConfig sampleTag second sampleEntry.key] := by
  obtain ⟨keys, calls⟩ := sample_flush
  have flushed := lifecycle_step_flush sampleConfig
    (lifecycleStep sampleConfig sampleKeyed (.flushBuffer sampleTag (pageInit 0))) sampleTag second
    sampleEntry.key rfl (by rw [keys]; exact sample_keyed_tdek)
  exact flushed.2.trans (by rw [calls]; rfl)

/-- Two blocks of one relation, written under one key, do not share a keystream. -/
theorem two_blocks_never_share_keystream :
    let after := sampleRun (.flushBuffer { sampleTag with blockNum := 1 } (pageInit 0))
    ∃ first ∈ after.calls, ∃ second ∈ after.calls,
      first.tdek = second.tdek ∧ (first.tdek, first.iv) ≠ (second.tdek, second.iv) := by
  have apart : sampleCipher.hkdfSha256 tdePageHkdfLabel sampleEntry.key (pageIvInfo sampleTag) ≠
      sampleCipher.hkdfSha256 tdePageHkdfLabel sampleEntry.key
        (pageIvInfo { sampleTag with blockNum := 1 }) := by
    decide
  have shared := keystream_pair_shared_iff sampleConfig sampleKeyed
    [.flushBuffer sampleTag (pageInit 0),
      .flushBuffer { sampleTag with blockNum := 1 } (pageInit 0)] rfl
  have separates : ∀ tdek, Set.InjOn (sampleConfig.cipher.hkdfSha256 tdePageHkdfLabel tdek)
      {info | ∃ call ∈ [recordedCall sampleConfig sampleTag (pageInit 0) sampleEntry.key,
        recordedCall sampleConfig { sampleTag with blockNum := 1 } (pageInit 0)
          sampleEntry.key], info = pageIvInfo call.tag} := by
    intro tdek left leftMember right rightMember same
    obtain ⟨first, firstMember, rfl⟩ := leftMember
    obtain ⟨second, secondMember, rfl⟩ := rightMember
    simp only [mem_cons, not_mem_nil, or_false] at firstMember secondMember
    rcases firstMember with rfl | rfl <;> rcases secondMember with rfl | rfl
    · rfl
    · exact absurd same apart
    · exact absurd same.symm apart
    · rfl
  refine ⟨_, mem_cons_self, _, mem_cons_of_mem _ mem_cons_self, rfl, ?_⟩
  intro pairEq
  have sameTag := ((shared separates _ mem_cons_self _
    (mem_cons_of_mem _ mem_cons_self)).mp pairEq).2
  exact absurd sameTag (by decide)

/-- One block written twice, with a changed payload in between, is encrypted both times
with the same key and vector. -/
theorem rewritten_block_shares_keystream :
    let after := sampleRun (.flushBuffer sampleTag (setWord16 (pageInit 0) 8000 7))
    ∃ first ∈ after.calls, ∃ second ∈ after.calls,
      byteAt first.plain 8000 ≠ byteAt second.plain 8000 ∧
        (first.tdek, first.iv) = (second.tdek, second.iv) := by
  have before : byteAt (pageInit 0) 8000 = 0 := by
    simp (disch := decide) only [pageInit, byte_at_set_word16_other, byte_at_zero_page]
  have after : byteAt (setWord16 (pageInit 0) 8000 7) 8000 = 7 :=
    byte_at_set_word16_low _ 8000 7 (by decide)
  have calls := sample_two_flushes (setWord16 (pageInit 0) 8000 7)
  refine ⟨recordedCall sampleConfig sampleTag (pageInit 0) sampleEntry.key, calls ▸ mem_cons_self,
    recordedCall sampleConfig sampleTag (setWord16 (pageInit 0) 8000 7) sampleEntry.key,
    calls ▸ mem_cons_of_mem _ mem_cons_self, ?_,
    recorded_calls_share sampleConfig sampleTag _ _ sampleEntry.key⟩
  rw [byte_at_recorded_plain sampleConfig _ _ _ 8000 (by decide) (by decide),
    byte_at_recorded_plain sampleConfig _ _ _ 8000 (by decide) (by decide), before, after]
  decide

/-- No effective rotation and no restart once there are pages, new keys only for tablespaces without
them, and re-insertion only of the key in use. -/
def KeepsKeys (state : LifecycleState) : LifecycleOp → Prop
  | .flushBuffer _ _ => True
  | .generateTablespaceKey spcOid random =>
    (tdeGenerateTablespaceKey state.keys spcOid random).raised = none →
      ∀ call ∈ state.calls, call.tag.spcOid ≠ spcOid
  | .rotateMasterKey generated =>
    (tdeRotateMasterKey state.keys generated).raised = none → state.calls = []
  | .keycacheInsert entry =>
    (insertKey state.keys entry).raised = none →
      ∀ call ∈ state.calls, call.tag.spcOid = entry.spcOid →
        entry.active = true ∧ entry.key = call.tdek
  | .restart _ => state.calls = []

def KeysInForce (state : LifecycleState) : Prop :=
  ∀ call ∈ state.calls, WellRecorded config call ∧
    state.keys.tdek call.tag.spcOid = some call.tdek

theorem insert_key_in_force (entry : TdeKeyEntry)
    (same : (insertKey state.keys entry).raised = none →
      ∀ call ∈ state.calls, call.tag.spcOid = entry.spcOid →
        entry.active = true ∧ entry.key = call.tdek) (inForce : KeysInForce config state) :
    KeysInForce config { state with keys := (insertKey state.keys entry).state } := by
  intro call member
  obtain ⟨recorded, current⟩ := inForce call member
  refine ⟨recorded, ?_⟩
  simp only [insert_key_tdek]
  split_ifs with effective active
  · rw [(same effective.1 call member effective.2).2]
  · exact absurd (same effective.1 call member effective.2).1 active
  · exact current

theorem generate_tablespace_key_cases (spcOid : Oid) (random : Option Key) :
    (∃ report, tdeGenerateTablespaceKey keys spcOid random = raise keys report) ∨
      ∃ tdek, tdeGenerateTablespaceKey keys spcOid random =
        insertKey keys { spcOid := spcOid, key := tdek, version := 1, active := true } := by
  unfold tdeGenerateTablespaceKey
  cases keys.masterKey with
  | none => exact .inl ⟨_, rfl⟩
  | some master =>
    cases random with
    | none => exact .inl ⟨_, rfl⟩
    | some tdek => exact .inr ⟨tdek, rfl⟩

theorem rotate_master_key_raised (generated : Raises Key) (report : ErrorReport)
    (raised : (tdeRotateMasterKey keys generated).raised = some report) :
    (tdeRotateMasterKey keys generated).state.shmem = keys.shmem := by
  cases loaded : keys.masterKey with
  | none => simp [tdeRotateMasterKey, loaded, raise]
  | some master =>
    cases generated with
    | error failure => simp [tdeRotateMasterKey, loaded, raise]
    | ok newKey =>
      cases attached : keys.shmem with
      | none => simp [tdeRotateMasterKey, loaded, attached, tdeKeycacheInvalidate, raise]
      | some cache =>
        simp [tdeRotateMasterKey, loaded, attached, tdeKeycacheInvalidate, returned] at raised

theorem lifecycle_step_keeps_keys (op : LifecycleOp) (kept : KeepsKeys state op)
    (inForce : KeysInForce config state) : KeysInForce config (lifecycleStep config state op) := by
  cases op with
  | flushBuffer tag bufBlock =>
    intro call member
    have sameKeys : (lifecycleStep config state (.flushBuffer tag bufBlock)).keys =
        state.keys := by
      simp only [lifecycleStep]
      split <;> rfl
    rw [sameKeys]
    rcases lifecycle_step_calls config state _ call member with old | added
    · exact inForce call old
    · obtain ⟨_, _, same, made⟩ := added
      cases same
      obtain ⟨recorded, tagEq, current⟩ :=
        encrypt_call_well_recorded config state.keys tag bufBlock call made
      exact ⟨recorded, tagEq ▸ current⟩
  | generateTablespaceKey spcOid random =>
    simp only [KeepsKeys] at kept
    simp only [lifecycleStep]
    rcases generate_tablespace_key_cases state.keys spcOid random with failed | inserted
    · obtain ⟨report, outcome⟩ := failed
      rw [outcome]
      exact inForce
    · obtain ⟨tdek, outcome⟩ := inserted
      rw [outcome] at kept ⊢
      apply insert_key_in_force config state _ _ inForce
      intro effective call member same
      exact absurd same (kept effective call member)
  -- A rotation that returns has emptied the cache: it is allowed only before the first page.
  | rotateMasterKey generated =>
    simp only [lifecycleStep]
    intro call member
    cases raised : (tdeRotateMasterKey state.keys generated).raised with
    | none =>
      rw [kept raised] at member
      cases member
    | some report =>
      obtain ⟨recorded, current⟩ := inForce call member
      refine ⟨recorded, ?_⟩
      simp only [KeyState.tdek] at ⊢
      rw [rotate_master_key_raised state.keys generated report raised]
      exact current
  | keycacheInsert entry => exact insert_key_in_force config state entry kept inForce
  | restart unwrapped =>
    intro call member
    have none : state.calls = [] := kept
    simp only [lifecycleStep, none] at member
    cases member

theorem decrypt_under_same_key (call : EncryptCall) (recorded : WellRecorded config call)
    (current : keys.tdek call.tag.spcOid = some call.tdek) :
    tdeDecryptPage config.cipher keys.shmem call.encrypted call.tag = call.plain := by
  obtain ⟨cache, entry, attached, found, sameKey⟩ := (tdek_eq_some_iff keys _ _).mp current
  rw [attached, tde_decrypt_page_cached config.cipher found, recorded.2, sameKey, xor_from_xor_from]

/-- In every run that keeps the keys in use, every page encrypted still decrypts at the end. -/
theorem encrypted_pages_stay_decryptable (initial : LifecycleState) (ops : List LifecycleOp)
    (unrecorded : initial.calls = [])
    (kept : Admissible (lifecycleStep config) KeepsKeys initial ops) :
    ∀ call ∈ (run (lifecycleStep config) initial ops).calls,
      tdeDecryptPage config.cipher (run (lifecycleStep config) initial ops).keys.shmem
        call.encrypted call.tag = call.plain := by
  intro call member
  have inForce := run_invariant (lifecycleStep config) KeepsKeys (KeysInForce config)
    (lifecycle_step_keeps_keys config) initial ops kept (by simp [KeysInForce, unrecorded])
  obtain ⟨recorded, current⟩ := inForce call member
  exact decrypt_under_same_key config _ call recorded current

/-- A page written before the key of another tablespace is generated stays readable. -/
theorem page_survives_other_tablespace_key :
    let after := sampleRun (.generateTablespaceKey 1664 (some sampleEntry.key))
    ∃ call ∈ after.calls,
      tdeDecryptPage sampleCipher after.keys.shmem call.encrypted call.tag = call.plain := by
  let call := recordedCall sampleConfig sampleTag (pageInit 0) sampleEntry.key
  have kept : Admissible (lifecycleStep sampleConfig) KeepsKeys sampleKeyed
      [.flushBuffer sampleTag (pageInit 0),
        .generateTablespaceKey 1664 (some sampleEntry.key)] := by
    refine ⟨trivial, ?_, trivial⟩
    intro _ other member
    rw [sample_flush.2, mem_singleton] at member
    rw [member]
    decide
  exact ⟨call, mem_cons_self,
    encrypted_pages_stay_decryptable sampleConfig sampleKeyed _ rfl kept call mem_cons_self⟩

theorem decrypt_without_key_iff (call : EncryptCall) (recorded : WellRecorded config call)
    (missing : keys.tdek call.tag.spcOid = none) :
    tdeDecryptPage config.cipher keys.shmem call.encrypted call.tag = call.plain ↔
      Silent blcksz tdePageHeaderSize (pageKeystream config.cipher call.tdek call.tag) := by
  have large : ¬ blcksz ≤ tdePageHeaderSize := by decide
  have unchanged : tdeDecryptPage config.cipher keys.shmem call.encrypted call.tag =
      call.encrypted := by
    rw [KeyState.tdek, Option.map_eq_none_iff] at missing
    cases attached : keys.shmem with
    | none => simp [tdeDecryptPage, tdePageCrypt, tdeKeycacheLookup, if_neg large]
    | some cache =>
      rw [attached, Option.bind_some] at missing
      simp [tdeDecryptPage, tdePageCrypt, tdeKeycacheLookup, missing, if_neg large]
  rw [unchanged, recorded.2, xor_from_eq_self_iff]

/-- Rotating the master key loses the page: its tablespace key was only in the cache. -/
theorem page_lost_by_rotation :
    let after := sampleRun (.rotateMasterKey (.ok (Vector.replicate tdeAesKeyLen 2)))
    ∃ call ∈ after.calls,
      tdeDecryptPage sampleCipher after.keys.shmem call.encrypted call.tag ≠ call.plain := by
  let call := recordedCall sampleConfig sampleTag (pageInit 0) sampleEntry.key
  refine ⟨call, ?_, fun restored => ?_⟩
  · change call ∈ (lifecycleStep sampleConfig sampleKeyed
      (.flushBuffer sampleTag (pageInit 0))).calls
    exact mem_cons_self
  · have silent := (decrypt_without_key_iff sampleConfig _ call
      (recorded_call_well_recorded sampleConfig sampleTag (pageInit 0) sampleEntry.key)
      rfl).mp restored
    exact sample_block_not_silent sampleTag silent

end Machine

end FortressQL.Tde.KeyLifecycle
