import Hss.Boot.Providers

/-! The boot initialisation, which tries the storage providers one after another, and what it takes
for the one of the FPGA's flash to return. -/

namespace Hss

open ByteMemory

/-- A storage provider: what its `init` returns, if it has one, and its `getBootImage`, which may not
return. -/
structure StorageProvider where
  init : Bool
  getBootImage : Mem → Option BootImageResult

section
variable (cfg : InitConfig) (miniz : Miniz)

/-- The loop of `HSS_BootInit` over the providers, given the result so far. -/
def hssBootInitLoop : List StorageProvider → Bool → State → Option (Bool × State)
  | [], result, s => some (result, s)
  | storage :: storages, _, s =>
    if storage.init then
      match storage.getBootImage s.mem with
      | none => none
      | some got =>
        let (result, s) := tryBootFunction cfg miniz (fun _ => got) s
        if result then some (true, s) else hssBootInitLoop storages false s
    else
      hssBootInitLoop storages false s

/-- `HSS_BootInit` without a selected provider. -/
def hssBootInit (pStorages : List StorageProvider) (s : State) : Option (Bool × State) :=
  hssBootInitLoop cfg miniz pStorages true s

end

/-- `fpgaqspiStorage_`, when each loop of its reads is given `turns` turns, from read `n` on. -/
def fpgaqspiStorage (lay : BootLayout) (d : FpgaFlash) (n turns : ℕ) : StorageProvider where
  init := d.isInitialized
  getBootImage mem := (getBootImageFromFpgaQspi lay d turns n mem).returned

/-- Providers that return: what their `init` and their `getBootImage` do. -/
def returning (storages : List (Bool × (Mem → BootImageResult))) : List StorageProvider :=
  storages.map fun p => ⟨p.1, fun mem => some (p.2 mem)⟩

/-- The reads of the flash answer: the pages of the header come, and where its magic is good, those
of the image after them, unless its length wraps. -/
structure FpgaFlashAnswers (d : FpgaFlash) (n : ℕ) : Prop where
  header : FlashAnswers d n 0 (d.pages (BitVec.ofNat 64 BootImage.sizeOf))
  image : hssBootVerifyMagic (deviceMem d.content 0) 0 = true →
    ∀ pages, pages = d.pages (BootImage.bootImageLength (deviceMem d.content 0) 0) →
      pages * d.writesize < 2 ^ 64 →
      (∀ k < pages, (k + 1) * d.writesize ≤ d.size) ∧
        ∃ m, Nat.count (fun i => d.reads i) n +
          (d.pages (BitVec.ofNat 64 BootImage.sizeOf) + pages) ≤ Nat.count (fun i => d.reads i) m

variable {cfg : InitConfig} {miniz : Miniz} {lay : BootLayout} {d : FpgaFlash} {n : ℕ} {mem : Mem}
  {s : State}

theorem FetchOutcome.returned_eq_none {fetched : FetchOutcome} :
    fetched.returned = none ↔ fetched.result = none := Option.map_eq_none_iff

theorem hssBootInitLoop_returns (storages : List (Bool × (Mem → BootImageResult))) (result : Bool)
    (s : State) :
    hssBootInitLoop cfg miniz (returning storages) result s ≠ none := by
  induction storages generalizing result s with
  | nil => exact Option.some_ne_none _
  | cons storage storages ih =>
    rw [returning, List.map_cons, hssBootInitLoop]
    split
    · dsimp only
      split
      · exact Option.some_ne_none _
      · exact ih _ _
    · exact ih _ _

/-- The initialisation gets past its first provider, or stops with its image, when that returns. -/
theorem hssBootInit_returns_iff {storage : StorageProvider}
    {storages : List (Bool × (Mem → BootImageResult))} :
    hssBootInit cfg miniz (storage :: returning storages) s ≠ none ↔
      (storage.init = true → storage.getBootImage s.mem ≠ none) := by
  rw [hssBootInit, hssBootInitLoop]
  split
  · next tried =>
    cases got : storage.getBootImage s.mem with
    | none => simp [tried]
    | some got =>
      refine iff_of_true ?_ fun _ => Option.some_ne_none _
      dsimp only
      split
      · exact Option.some_ne_none _
      · exact hssBootInitLoop_returns _ _ _
  · next skipped =>
    exact iff_of_true (hssBootInitLoop_returns _ _ _) fun tried => absurd tried skipped

/-- The second read, after a header that came, answers when there are enough reads for both. -/
theorem flashAnswers_after {reads pages before : ℕ}
    (count : Nat.count (fun i => d.reads i) reads = Nat.count (fun i => d.reads i) n + before) :
    FlashAnswers d reads 0 pages ↔ (∀ k < pages, (k + 1) * d.writesize ≤ d.size) ∧
      ∃ m, Nat.count (fun i => d.reads i) n + (before + pages) ≤ Nat.count (fun i => d.reads i) m := by
  have zero : (0 : BitVec 32).toNat = 0 := rfl
  constructor
  · rintro ⟨inDevice, enough⟩
    rw [count, Nat.add_assoc] at enough
    exact ⟨fun k less => by simpa [zero] using inDevice k less, enough⟩
  · rintro ⟨inDevice, enough⟩
    rw [← Nat.add_assoc, ← count] at enough
    exact ⟨fun k less => by simpa [zero] using inDevice k less, enough⟩

/-- The second read ends, also when its length wraps. -/
theorem fpgaSecondRead_comes {reads before : ℕ} {len : Word} (initialized : d.isInitialized = true)
    (count : Nat.count (fun i => d.reads i) reads = Nat.count (fun i => d.reads i) n + before)
    (answers : d.pages len * d.writesize < 2 ^ 64 →
      (∀ k < d.pages len, (k + 1) * d.writesize ≤ d.size) ∧
        ∃ m, Nat.count (fun i => d.reads i) n + (before + d.pages len) ≤
          Nat.count (fun i => d.reads i) m) (dest : Word) (mem : Mem) :
    ∃ turns, (fpgaFlashRead d turns reads dest 0 len mem).result = some true := by
  by_cases fits : d.pages len * d.writesize < 2 ^ 64
  · exact ((flashAnswers_after count).mpr (answers fits)).comes initialized (Nat.zero_mod _) dest mem
  · exact ⟨0, fpgaFlashRead_of_wraps initialized (Nat.zero_mod _) (not_lt.mp fits)⟩

theorem getBootImageFromFpgaQspi_returns_iff (initialized : d.isInitialized = true) :
    (∃ turns, (getBootImageFromFpgaQspi lay d turns n mem).result ≠ none) ↔ FpgaFlashAnswers d n := by
  have aligned : (0 : BitVec 32).toNat % d.writesize = 0 := Nat.zero_mod _
  constructor
  · rintro ⟨turns, returns⟩
    unfold getBootImageFromFpgaQspi at returns
    dsimp only at returns
    split at returns
    · next comes =>
      have bytes := fpgaHeader_bytes comes
      refine ⟨.of_ends initialized aligned fpgaHeader_fits (by rw [comes]; exact Option.some_ne_none _),
        fun magic pages length fits => ?_⟩
      rw [if_pos (by rw [verifyMagic_of_device bytes]; exact magic)] at returns
      subst length
      rw [← bootImageLength_of_device bytes] at fits ⊢
      exact (flashAnswers_after (fpgaHeader_brought comes).count).mp
        (.of_ends initialized aligned fits returns)
    · next failed =>
      cases result : (fpgaFlashRead d turns n lay.bootImage 0 (BitVec.ofNat 64 BootImage.sizeOf)
        mem).result with
      | none => exact absurd result returns
      | some result' =>
        cases result' with
        | true => exact absurd result failed
        | false => exact absurd result (fpgaFlashRead_not_false initialized aligned)
  · rintro ⟨header, image⟩
    obtain ⟨turns, comes⟩ := header.comes initialized aligned lay.bootImage mem
    have bytes := fpgaHeader_bytes comes
    have some : (fpgaFlashRead d turns n lay.bootImage 0 (BitVec.ofNat 64 BootImage.sizeOf)
        mem).result ≠ none := by rw [comes]; exact Option.some_ne_none _
    by_cases magic : hssBootVerifyMagic (deviceMem d.content 0) 0 = true
    · obtain ⟨more, ends⟩ := fpgaSecondRead_comes initialized (fpgaHeader_brought comes).count
        (image magic _ rfl) lay.ddrTargetAddr (fpgaFlashRead d turns n lay.bootImage 0
          (BitVec.ofNat 64 BootImage.sizeOf) mem).mem
      refine ⟨max turns more, ?_⟩
      unfold getBootImageFromFpgaQspi
      rw [fpgaFlashRead_more some (Nat.le_max_left _ _), if_pos comes,
        if_pos (by rw [verifyMagic_of_device bytes]; exact magic)]
      dsimp only
      rw [bootImageLength_of_device bytes,
        fpgaFlashRead_more (by rw [ends]; exact Option.some_ne_none _) (Nat.le_max_right _ _), ends]
      exact Option.some_ne_none _
    · refine ⟨turns, ?_⟩
      unfold getBootImageFromFpgaQspi
      rw [if_pos comes, if_neg (by rw [verifyMagic_of_device bytes]; exact magic)]
      exact Option.some_ne_none _

/-- A read is true exactly when its pages come and none goes to a null destination, and the
initialisation gets past the FPGA's flash exactly when that answers: a page that does not come is
asked for again, for ever. -/
theorem fpgaFlashRead_truly_iff (lay : BootLayout) (miniz : Miniz) (d : FpgaFlash) (n : ℕ)
    (storages : List (Bool × (Mem → BootImageResult))) (s : State) :
    (∀ reads dest off len, ReadsTruly d reads dest off len ↔
      (d.isInitialized = true → off.toNat % d.writesize = 0 →
        FlashReadable d reads dest off len)) ∧
    ((∃ turns, hssBootInit lay.toInitConfig miniz
        (fpgaqspiStorage lay d n turns :: returning storages) s ≠ none) ↔
      (d.isInitialized = true → FpgaFlashAnswers d n)) := by
  refine ⟨fun _ _ _ _ => readsTruly_iff, ?_⟩
  simp only [hssBootInit_returns_iff]
  by_cases initialized : d.isInitialized = true
  · have returns : (∃ turns, (getBootImageFromFpgaQspi lay d turns n s.mem).result ≠ none) ↔
        FpgaFlashAnswers d n := getBootImageFromFpgaQspi_returns_iff initialized
    simp only [fpgaqspiStorage, initialized, true_imp_iff, ← returns, ne_eq,
      FetchOutcome.returned_eq_none]
  · refine iff_of_true ⟨0, fun tried => absurd tried initialized⟩ fun tried => absurd tried initialized

/-- A flash of four pages none of which comes. -/
def deadFlash : FpgaFlash where
  isInitialized := true
  pageShift := 11
  pageShift_lt := by decide
  size := 8192
  size_lt := by decide
  content _ := 0xFF
  reads _ := false

theorem deadFlash_no_answers {off : BitVec 32} {pages : ℕ} (some : 0 < pages) :
    ¬ FlashAnswers deadFlash 0 off pages := by
  rintro ⟨-, n, enough⟩
  have none (n : ℕ) : Nat.count (fun i => deadFlash.reads i = true) n = 0 := by
    induction n with
    | zero => rfl
    | succ n ih =>
      rw [Nat.count_succ, ih]
      rfl
  rw [none, none] at enough
  omega

/-- A read of a byte from that flash is for ever, and the initialisation stays with it. -/
theorem deadFlash_hangs :
    (¬ ∀ (d : FpgaFlash) reads dest off len, off.toNat % d.writesize = 0 →
      ReadsTruly d reads dest off len) ∧
    ¬ ∀ lay miniz d n storages s, ∃ turns, hssBootInit lay.toInitConfig miniz
      (fpgaqspiStorage lay d n turns :: returning storages) s ≠ none := by
  constructor
  · intro truly
    exact deadFlash_no_answers (by decide)
      (readsTruly_iff.mp (truly deadFlash 0 0x1000 0 1 rfl) rfl rfl).answers
  · intro reached
    obtain ⟨turns, returns⟩ := reached icicleKitLayout inflateStoredByte deadFlash 0 []
      (powerOn .icicleKitEs (fun _ => 0) (fun _ _ => ⟨0, 0, .nullRegion, false, false, false, false⟩) 0)
    have returned := hssBootInit_returns_iff.mp returns rfl
    have answers := (getBootImageFromFpgaQspi_returns_iff rfl).mp
      ⟨turns, fun none => returned (FetchOutcome.returned_eq_none.mpr none)⟩
    exact deadFlash_no_answers (by decide) answers.header

end Hss
