import LiveDex.Loading
import LiveDex.Proofs.Actions
import LiveDex.Proofs.Files
import LiveDex.Proofs.RoundTrip

/-!
Loading a staged file. The optimized file gives back the container it was made of, so what the
raw file passed the optimized file passes too, and the image has the classes of the raw file.
-/
namespace LiveDex

namespace Container.Optimized

theorem wordAt_append {front word back : Bytes} (hword : word.length = 4) :
    wordAt (front ++ (word ++ back)) front.length = Bytes.toNat .little word := by
  unfold wordAt
  rw [List.drop_left, List.take_left' hword]

theorem toNat_lengthWord {n : Nat} (hn : n < 2 ^ 32) :
    Bytes.toNat .little (lengthWord n) = n :=
  Bytes.toNat_ofNat .little 4 n hn

/-- An optimized file gives back the container in it. -/
theorem payload?_wrap (flags : UInt32) {container : Bytes} (hsize : container.length < 2 ^ 32) :
    payload? (wrap flags container) = some container := by
  have hoffset : wordAt (wrap flags container) magic.length = headerLength := by
    unfold wrap
    rw [List.append_assoc, List.append_assoc, List.append_assoc,
      wordAt_append (length_lengthWord _), toNat_lengthWord (by decide)]
  have hlength : wordAt (wrap flags container) (magic.length + 4) = container.length := by
    have hfront : (magic ++ lengthWord headerLength).length = magic.length + 4 := by
      rw [List.length_append, length_lengthWord]
    unfold wrap
    rw [← hfront, List.append_assoc, List.append_assoc, wordAt_append (length_lengthWord _),
      toNat_lengthWord hsize]
  have hheader : (magic ++ lengthWord headerLength ++ lengthWord container.length ++
      word32 flags).length = headerLength := by
    simp only [List.length_append, length_lengthWord, length_word32]
    rfl
  have hmagic : (wrap flags container).take magic.length = magic := by
    unfold wrap
    rw [List.append_assoc, List.append_assoc, List.append_assoc, List.take_left]
  have htotal : (wrap flags container).length = headerLength + container.length := by
    unfold wrap
    rw [List.length_append, hheader]
  have hdrop : (wrap flags container).drop headerLength = container := by
    unfold wrap
    exact List.drop_left' hheader
  simp [payload?, hoffset, hlength, hmagic, htotal, hdrop]

end Container.Optimized

namespace Loading

theorem verify_eq_ok_iff {path : String} {bytes : Bytes} {bundle : Bundle} :
    verify path bytes = .ok bundle ↔
      ∃ tables, Container.Tables.decode bytes = .ok tables ∧ tables.resolve = .ok bundle := by
  unfold verify
  cases Container.Tables.decode bytes with
  | error e => simp
  | ok tables => cases hresolve : tables.resolve <;> simp [hresolve]

theorem verify_eq_validation {path : String} {bytes : Bytes} {tables : Container.Tables}
    {e : Container.ValidationError} (hdecode : Container.Tables.decode bytes = .ok tables)
    (hresolve : tables.resolve = .error e) : verify path bytes = .error (.validation path e) := by
  simp only [verify, hdecode, hresolve]

/-- Verification of an encoded bundle depends on whether the bundle is valid. -/
theorem verify_of_valid {path : String} {bundle : Bundle} {bytes : Bytes}
    (hencode : bundle.encode = .ok bytes) (hvalid : Container.Valid bundle) :
    verify path bytes = .ok bundle := by
  exact verify_eq_ok_iff.mpr ⟨_, Container.decode_resolve_of_valid hencode hvalid⟩

theorem verify_of_not_valid {bundle : Bundle} {bytes : Bytes}
    (hencode : bundle.encode = .ok bytes) (hvalid : ¬ Container.Valid bundle) :
    ∃ e, ∀ path, verify path bytes = .error (.validation path e) := by
  obtain ⟨hdecode, hsmall⟩ := Container.decode_of_encode hencode
  cases hresolve : (Container.Tables.ofBundle bundle).resolve with
  | error e => exact ⟨e, fun path => verify_eq_validation hdecode hresolve⟩
  | ok resolved =>
    exact absurd ((Container.resolve_ofBundle_eq_ok_iff_valid hsmall resolved).mp hresolve).2 hvalid

open LiveDex.Action

variable {request : LoadRequest} {before : Workspace} {bytes : Bytes}

theorem load_runs_invalid {e : Error} (hread : before.files.read request.rawPath = .ok bytes)
    (hverify : verify request.rawPath bytes = .error e) :
    (load request).Runs before (.error e) before := by
  have hraw := (runs_readFile hread).mapError (Error.file request.rawPath)
  exact hraw.bind (runs_ofExcept hverify).bind_error

theorem load_runs_unwritten {bundle : Bundle} {e : Volume.Error}
    (hread : before.files.read request.rawPath = .ok bytes)
    (hverify : verify request.rawPath bytes = .ok bundle) (hsize : bytes.length < 2 ^ 32)
    (hcreate : before.files.createFile request.optimizedPath
      (Container.Optimized.wrap request.flags bytes) = .error e) :
    (load request).Runs before (.error (.file request.optimizedPath e)) before := by
  have hraw := (runs_readFile hread).mapError (Error.file request.rawPath)
  have hwrapped : wrapped request.flags bytes =
      .ok (Container.Optimized.wrap request.flags bytes) :=
    if_pos hsize
  have hcreated := (runs_createFile_error hcreate).mapError (Error.file request.optimizedPath)
  refine hraw.bind ((runs_ofExcept hverify).bind ?_)
  exact (runs_ofExcept hwrapped).bind hcreated.bind_error

theorem load_runs_ok {bundle : Bundle} {files : Volume}
    (hread : before.files.read request.rawPath = .ok bytes)
    (hverify : verify request.rawPath bytes = .ok bundle) (hsize : bytes.length < 2 ^ 32)
    (hcreate : before.files.createFile request.optimizedPath
      (Container.Optimized.wrap request.flags bytes) = .ok files) :
    (load request).Runs before
      (.ok (ContainerImage.ofBundle (before.imagesOpened + 1) request.optimizedPath bundle))
      { before with
        files
        imagesOpened := before.imagesOpened + 1
        log := before.log ++ [.opened (before.imagesOpened + 1) request.optimizedPath
          (ContainerImage.ofBundle (before.imagesOpened + 1) request.optimizedPath
            bundle).size] } := by
  have hraw := (runs_readFile hread).mapError (Error.file request.rawPath)
  have hwrapped : wrapped request.flags bytes =
      .ok (Container.Optimized.wrap request.flags bytes) :=
    if_pos hsize
  have hcreated := (runs_createFile hcreate).mapError (Error.file request.optimizedPath)
  have hread' : ({ before with files } : Workspace).files.read request.optimizedPath =
      .ok (Container.Optimized.wrap request.flags bytes) :=
    Volume.read_of_createFile hcreate
  have hoptimized := (runs_readFile hread').mapError (Error.file request.optimizedPath)
  have hpayload : payload request.optimizedPath (Container.Optimized.wrap request.flags bytes) =
      .ok bytes := by
    simp [payload, Container.Optimized.payload?_wrap _ hsize]
  have hagain : verify request.optimizedPath bytes = .ok bundle :=
    verify_eq_ok_iff.mpr (verify_eq_ok_iff.mp hverify)
  refine hraw.bind ((runs_ofExcept hverify).bind ?_)
  refine (runs_ofExcept hwrapped).bind (hcreated.bind ?_)
  refine hoptimized.bind ((runs_ofExcept hpayload).bind ?_)
  refine (runs_ofExcept hagain).bind (runs_nextImage.bind ?_)
  exact (runs_log _).bind (runs_pure _)

section Sound

variable {tables : Container.Tables} {bundle : Bundle}
  (hread : before.files.read request.rawPath = .ok bytes)
  (hdecode : Container.Tables.decode bytes = .ok tables) (hresolve : tables.resolve = .ok bundle)

include hread hdecode hresolve

/-- Only the optimized file can keep a sound container from being loaded. -/
theorem load_result_eq :
    (load request).result before =
      match before.files.createFile request.optimizedPath
          (Container.Optimized.wrap request.flags bytes) with
      | .ok _ => .ok (.ofBundle (before.imagesOpened + 1) request.optimizedPath bundle)
      | .error e => .error (.file request.optimizedPath e) := by
  have hverify : verify request.rawPath bytes = .ok bundle :=
    verify_eq_ok_iff.mpr ⟨tables, hdecode, hresolve⟩
  have hsize := Container.length_lt_of_decode hdecode
  cases hcreate : before.files.createFile request.optimizedPath
      (Container.Optimized.wrap request.flags bytes) with
  | ok files => exact (load_runs_ok hread hverify hsize hcreate).result_eq
  | error e => exact (load_runs_unwritten hread hverify hsize hcreate).result_eq

theorem eq_ofBundle_of_load {image : ContainerImage}
    (h : (load request).result before = .ok image) :
    image = .ofBundle (before.imagesOpened + 1) request.optimizedPath bundle := by
  rw [load_result_eq hread hdecode hresolve] at h
  split at h
  · exact (Except.ok.inj h).symm
  · cases h

theorem load_succeeds_iff :
    (∃ image, (load request).result before = .ok image) ↔
      ∃ files, before.files.createFile request.optimizedPath
        (Container.Optimized.wrap request.flags bytes) = .ok files := by
  rw [load_result_eq hread hdecode hresolve]
  cases before.files.createFile request.optimizedPath
      (Container.Optimized.wrap request.flags bytes) with
  | ok files => simp
  | error e => simp

end Sound

end Loading

end LiveDex
