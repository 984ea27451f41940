import SwmSdk.DownloadGo
import SwmSdk.DownloadResume

/-! # The destination of a download that fails

`download_update` writes next to the destination and puts the file in its place only when it has
passed the check: it removes the destination and renames the file.  The two are separate calls,
and when the second fails the first is not undone.

A failing download leaves the destination alone exactly when it fails before that, or there was no
destination, or it could not be removed (`destination_kept_iff`).
-/
namespace SwmSdk
open ByteText Outcome

namespace Cpp

/-- The file that a stream leaves at the end of its body, if it has the expected length and passes
the check. -/
def Arrives (crypto : Crypto) (disk : Disk) (progress : Progress) (update : UpdateInfo)
    (partialFile : Option Bytes) (plan : Plan) : Prop :=
  disk.openOutput = true ∧
    ∃ written bytes, receive progress plan.expected plan.stream.failure plan.existing
        plan.stream.chunks = (.ok written, bytes) ∧
      ¬ (plan.expected > 0 ∧ written ≠ plan.expected) ∧
      checkFile crypto disk update
        (disk.keep ((if plan.append then partialFile.getD [] else []) ++ bytes)) = .ok ()

/-- A download that gets as far as its destination. -/
def Downloads (crypto : Crypto) (options : TrustOptions) (server : Server) (disk : Disk)
    (progress : Progress) (update : UpdateInfo) (state : DownloadState) : Prop :=
  (update.updateAvailable = true ∧ update.openInBrowser = false ∧
      validDownloadUrl update.downloadUrl options.baseUrl = true) ∧
    disk.prepare = .ok () ∧
    ∃ plan requests, fetch server update.downloadUrl ((state.partialFile.map List.length).getD 0)
        state.requests = (.ok plan, requests) ∧
      Arrives crypto disk progress update state.partialFile plan

theorem discard_destination (disk : Disk) (state : DownloadState) (failure : Failure) :
    (discard disk state failure).2.destination = state.destination := by
  unfold discard
  cases disk.removePartial <;> rfl

/-- What the last two calls do. -/
theorem install_destination (disk : Disk) (state : DownloadState) (file : Bytes) :
    ((∃ e, (install disk state file).1 = .error e) ↔ ∃ e, disk.rename = .error e) ∧
      ∀ e, disk.rename = .error e → (install disk state file).2.destination =
        if disk.removeDestination then none else state.destination := by
  unfold install
  cases disk.rename with
  | error e =>
    cases disk.removeDestination <;> simp
  | ok u => simp

/-- Writing the file either ends with the last two calls, or leaves the destination alone. -/
theorem store_cases (crypto : Crypto) (disk : Disk) (progress : Progress) (update : UpdateInfo)
    (state : DownloadState) (plan : Plan) :
    (Arrives crypto disk progress update state.partialFile plan ∧
      ∃ file, store crypto disk progress update state plan =
        install disk { state with partialFile := some file } file) ∨
    (¬ Arrives crypto disk progress update state.partialFile plan ∧
      (store crypto disk progress update state plan).2.destination = state.destination) := by
  unfold store Arrives
  by_cases hopen : disk.openOutput = true
  · rw [if_neg (not_not.mpr hopen)]
    dsimp only
    obtain ⟨⟨result, bytes⟩, hreceive⟩ : ∃ received, receive progress plan.expected
        plan.stream.failure plan.existing plan.stream.chunks = received := ⟨_, rfl⟩
    rw [hreceive]
    dsimp only
    cases result with
    | error e => exact .inr ⟨by simp, rfl⟩
    | ok written =>
      dsimp only
      -- a file of another length than announced, or of another digest, is discarded
      by_cases hlength : plan.expected > 0 ∧ written ≠ plan.expected
      · rw [if_pos hlength]
        refine .inr ⟨?_, discard_destination _ _ _⟩
        rintro ⟨-, _, _, hsame, hnot, -⟩
        obtain ⟨hwritten, -⟩ := Prod.mk.inj hsame
        obtain rfl := Except.ok.inj hwritten
        exact hnot hlength
      · rw [if_neg hlength]
        cases hcheck : checkFile crypto disk update
          (disk.keep ((if plan.append then state.partialFile.getD [] else []) ++ bytes)) with
        | error e =>
          refine .inr ⟨?_, discard_destination _ _ _⟩
          rintro ⟨-, _, _, hsame, -, hpasses⟩
          obtain ⟨-, rfl⟩ := Prod.mk.inj hsame
          rw [hcheck] at hpasses
          cases hpasses
        | ok u => exact .inl ⟨⟨hopen, written, bytes, rfl, hlength, hcheck⟩, _, rfl⟩
  · rw [if_pos hopen]
    exact .inr ⟨fun h => hopen h.1, rfl⟩

/-- A download ends with the last two calls, or leaves the destination alone. -/
theorem downloadUpdate_cases (crypto : Crypto) (options : TrustOptions) (server : Server)
    (disk : Disk) (progress : Progress) (update : UpdateInfo) (state : DownloadState) :
    (Downloads crypto options server disk progress update state ∧
      ∃ file last, last.destination = state.destination ∧
        downloadUpdate crypto options server disk progress update state =
          install disk last file) ∨
    (¬ Downloads crypto options server disk progress update state ∧
      (downloadUpdate crypto options server disk progress update state).2.destination =
        state.destination) := by
  unfold downloadUpdate Downloads
  by_cases hrejected : ¬ update.updateAvailable = true ∨ update.openInBrowser = true ∨
      ¬ validDownloadUrl update.downloadUrl options.baseUrl = true
  · rw [if_pos hrejected]
    refine .inr ⟨?_, rfl⟩
    rintro ⟨⟨havailable, hbrowser, hurl⟩, -⟩
    rw [havailable, hbrowser, hurl] at hrejected
    simp at hrejected
  · rw [if_neg hrejected]
    have haccepted : update.updateAvailable = true ∧ update.openInBrowser = false ∧
        validDownloadUrl update.downloadUrl options.baseUrl = true := by
      simpa only [not_or, not_not, Bool.not_eq_true, Bool.not_eq_false] using hrejected
    cases hprepare : disk.prepare with
    | error e => exact .inr ⟨by simp, rfl⟩
    | ok u =>
      dsimp only
      obtain ⟨⟨result, requests⟩, hfetch⟩ : ∃ fetched, fetch server update.downloadUrl
          ((state.partialFile.map List.length).getD 0) state.requests = fetched := ⟨_, rfl⟩
      rw [hfetch]
      cases result with
      | error e => exact .inr ⟨by simp, rfl⟩
      | ok plan =>
        dsimp only
        rcases store_cases crypto disk progress update { state with requests := requests } plan with
          ⟨harrives, file, hstore⟩ | ⟨hnot, hsame⟩
        · refine .inl ⟨⟨haccepted, rfl, plan, requests, rfl, harrives⟩, file,
            { state with requests := requests, partialFile := some file }, rfl, hstore⟩
        · refine .inr ⟨?_, hsame⟩
          rintro ⟨-, -, _, _, hplan, harrives⟩
          obtain ⟨hplan, -⟩ := Prod.mk.inj hplan
          obtain rfl := Except.ok.inj hplan
          exact hnot harrives

/-- When a C++ download that fails leaves the destination alone. -/
theorem downloadUpdate_kept_iff (crypto : Crypto) (options : TrustOptions) (server : Server)
    (disk : Disk) (progress : Progress) (update : UpdateInfo) (state : DownloadState) :
    ((∃ e, (downloadUpdate crypto options server disk progress update state).1 = .error e) →
        (downloadUpdate crypto options server disk progress update state).2.destination =
          state.destination) ↔
      (Downloads crypto options server disk progress update state →
        disk.removeDestination = true → (∃ e, disk.rename = .error e) →
        state.destination = none) := by
  rcases downloadUpdate_cases crypto options server disk progress update state with
    ⟨hdownloads, file, last, hlast, hsame⟩ | ⟨hnot, hkept⟩
  · obtain ⟨hfails, hafter⟩ := install_destination disk last file
    rw [hsame, hfails]
    constructor
    · rintro h - hremoved ⟨e, he⟩
      rw [← h ⟨e, he⟩, hafter e he, if_pos hremoved]
    · rintro h ⟨e, he⟩
      rw [hafter e he, hlast]
      by_cases hremoved : disk.removeDestination = true
      · rw [if_pos hremoved, h hdownloads hremoved ⟨e, he⟩]
      · rw [if_neg hremoved]
  · exact ⟨fun _ hdownloads => absurd hdownloads hnot, fun _ _ => hkept⟩

end Cpp

/-- **When a download that fails leaves the destination alone**: unless a file that passed the check
was to take the place of a destination that was there, which was removed, and the rename failed. -/
theorem destination_kept_iff (crypto : Crypto) (options : TrustOptions) (server : Cpp.Server)
    (disk : Cpp.Disk) (progress : Cpp.Progress) (update : UpdateInfo) (state : Cpp.DownloadState)
    (casing : Go.Casing) (allowInsecureHttp : Bool) (world : Go.DownloadWorld)
    (destination : Bytes) (files : Go.DownloadFiles) :
    (((∃ e, (Cpp.downloadUpdate crypto options server disk progress update state).1 =
          .error e) →
        (Cpp.downloadUpdate crypto options server disk progress update state).2.destination =
          state.destination) ↔
      (Cpp.Downloads crypto options server disk progress update state →
        disk.removeDestination = true → (∃ e, disk.rename = .error e) →
        state.destination = none)) ∧
    (((∃ fault, (Go.downloadUpdate crypto casing allowInsecureHttp world update destination
          files).1 = .error fault) →
        (Go.downloadUpdate crypto casing allowInsecureHttp world update destination
          files).2.destination = files.destination) ↔
      (Go.LosesDestination crypto casing allowInsecureHttp world update destination files →
        files.destination = none)) :=
  ⟨Cpp.downloadUpdate_kept_iff crypto options server disk progress update state,
    Go.downloadUpdate_kept_iff destination files⟩

/-! A destination that is there, and a rename that fails. -/

/-- A disk on which the finished file cannot be moved, because another program has it open. -/
def lockedDisk : Cpp.Disk :=
  { Cpp.workingDisk with rename := .error (.other (ascii "rename: Access is denied.")) }

/-- The download fails, and the old file is gone. -/
theorem destination_lost :
    ¬ ((∀ (crypto : Crypto) (options : TrustOptions) (server : Cpp.Server) (disk : Cpp.Disk)
          (progress : Cpp.Progress) (update : UpdateInfo) (state : Cpp.DownloadState),
        (∃ e, (Cpp.downloadUpdate crypto options server disk progress update state).1 =
            .error e) →
        (Cpp.downloadUpdate crypto options server disk progress update state).2.destination =
          state.destination) ∧
      ∀ (crypto : Crypto) (casing : Go.Casing) (allowInsecureHttp : Bool)
          (world : Go.DownloadWorld) (update : UpdateInfo) (destination : Bytes)
          (files : Go.DownloadFiles),
        (∃ fault, (Go.downloadUpdate crypto casing allowInsecureHttp world update destination
            files).1 = .error fault) →
        (Go.downloadUpdate crypto casing allowInsecureHttp world update destination
          files).2.destination = files.destination) := by
  rintro ⟨h, -⟩
  have hkept := h (SampleUpdate.certified.crypto [rootCertificate]) SampleUpdate.options
    (Cpp.sends (ascii "app")) lockedDisk none SampleUpdate.certified.update
    ⟨none, some (ascii "old"), []⟩
  have hrun : ((Cpp.downloadUpdate (SampleUpdate.certified.crypto [rootCertificate])
      SampleUpdate.options (Cpp.sends (ascii "app")) lockedDisk none SampleUpdate.certified.update
      ⟨none, some (ascii "old"), []⟩).1.toOption,
    (Cpp.downloadUpdate (SampleUpdate.certified.crypto [rootCertificate])
      SampleUpdate.options (Cpp.sends (ascii "app")) lockedDisk none SampleUpdate.certified.update
      ⟨none, some (ascii "old"), []⟩).2.destination) = (none, none) := by
    decide +kernel
  obtain ⟨hfailed, hgone⟩ := Prod.mk.inj hrun
  rw [hgone] at hkept
  refine absurd (hkept ?_) (by decide)
  cases hresult : (Cpp.downloadUpdate (SampleUpdate.certified.crypto [rootCertificate])
      SampleUpdate.options (Cpp.sends (ascii "app")) lockedDisk none SampleUpdate.certified.update
      ⟨none, some (ascii "old"), []⟩).1 with
  | error e => exact ⟨e, rfl⟩
  | ok u =>
    rw [hresult] at hfailed
    cases hfailed

end SwmSdk
