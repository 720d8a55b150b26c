import Mathlib.Data.List.Basic
import PostsMedia.Validation.Accepted
import PostsMedia.Validation.Codes

namespace PostsMedia.Validation

variable {engine : Engine} {configuration : UploadConfiguration} {files rest : List UploadedFile}
variable {file : UploadedFile} {before : Preflight} {fileIndex k : Nat}

/-- The sizes of all files up to this one that could be read. -/
def totalUpTo (files : List UploadedFile) (k : Nat) : Nat :=
  ((files.take (k + 1)).filterMap (·.size)).sum

theorem totalUpTo_zero (file : UploadedFile) (rest : List UploadedFile) :
    totalUpTo (file :: rest) 0 = file.size.getD 0 := by
  cases size : file.size with
  | none => simp [totalUpTo, size]
  | some size' => simp [totalUpTo, size]

theorem totalUpTo_succ (file : UploadedFile) (rest : List UploadedFile) (k : Nat) :
    totalUpTo (file :: rest) (k + 1) = file.size.getD 0 + totalUpTo rest k := by
  cases size : file.size with
  | none => simp [totalUpTo, size]
  | some size' => simp [totalUpTo, size]

/-- The sum changes only files before the end of the list. -/
theorem totalUpTo_take {count : Nat} (inside : k < count) :
    totalUpTo (files.take count) k = totalUpTo files k := by
  rw [totalUpTo, totalUpTo, List.take_take, Nat.min_eq_left inside]

section Surplus

theorem setError_errors (error : ValidationError) (i : Nat) :
    (before.setError fileIndex file error).errors i =
      if i = fileIndex then some (toFileError fileIndex file.originalname error)
      else before.errors i := by
  simp [Preflight.setError, Function.update_apply]

theorem rejectSurplus_sizes :
    (rejectSurplus configuration fileIndex files before).sizes = before.sizes := by
  induction files generalizing fileIndex before with
  | nil => rfl
  | cons file rest ih => exact ih

theorem rejectSurplus_before {i : Nat} (earlier : i < fileIndex) :
    (rejectSurplus configuration fileIndex files before).errors i = before.errors i := by
  induction files generalizing fileIndex before with
  | nil => rfl
  | cons file rest ih =>
      rw [rejectSurplus, ih (Nat.lt_succ_of_lt earlier), setError_errors,
        if_neg (Nat.ne_of_lt earlier)]

theorem rejectSurplus_errors (found : files[k]? = some file) :
    (rejectSurplus configuration fileIndex files before).errors (fileIndex + k) =
      some (toFileError (fileIndex + k) file.originalname
        (fileCountExceeded configuration.maxFilesPerRequest)) := by
  induction files generalizing fileIndex before k with
  | nil => cases found
  | cons first rest ih =>
      cases k with
      | zero =>
          cases found
          rw [rejectSurplus, Nat.add_zero fileIndex,
            rejectSurplus_before (Nat.lt_add_one fileIndex), setError_errors, if_pos rfl]
      | succ k =>
          rw [rejectSurplus, show fileIndex + (k + 1) = fileIndex + 1 + k by omega]
          exact ih found

end Surplus

section Stats

/-- A stat that has ended leaves its size or its error, whatever the order. -/
theorem foldl_recordStat_sizes (order : List Nat) (i : Nat) :
    (order.foldl (recordStat files) before).sizes i =
      if i ∈ order then (files[i]?.bind (·.size)).or (before.sizes i) else before.sizes i := by
  induction order generalizing before with
  | nil => simp
  | cons first rest ih =>
      have one : (recordStat files before first).sizes i =
          if i = first then (files[i]?.bind (·.size)).or (before.sizes i)
          else before.sizes i := by
        unfold recordStat
        cases found : files[first]? with
        | none =>
            by_cases same : i = first
            · simp [same, found]
            · simp [same]
        | some file =>
            cases size : file.size with
            | none =>
                by_cases same : i = first
                · simp [same, found, size, Preflight.setError]
                · simp [same, size, Preflight.setError]
            | some size' =>
                by_cases same : i = first
                · simp [same, found, size, Preflight.setSize]
                · simp [same, size, Preflight.setSize]
      rw [List.foldl_cons, ih, one]
      by_cases same : i = first
      · subst same
        cases size : files[i]?.bind (·.size) <;> simp
      · simp [same]

theorem foldl_recordStat_errors (order : List Nat) (i : Nat) :
    (order.foldl (recordStat files) before).errors i =
      match files[i]? with
      | none => before.errors i
      | some file =>
          if i ∈ order ∧ file.size = none then
            some (toFileError i file.originalname corruptedFile)
          else before.errors i := by
  induction order generalizing before with
  | nil => cases files[i]? <;> simp
  | cons first rest ih =>
      have one : (recordStat files before first).errors i =
          match files[i]? with
          | none => before.errors i
          | some file =>
              if i = first ∧ file.size = none then
                some (toFileError i file.originalname corruptedFile)
              else before.errors i := by
        unfold recordStat
        by_cases same : i = first
        · subst same
          cases found : files[i]? with
          | none => rfl
          | some file =>
              cases size : file.size with
              | none => simp [size, setError_errors]
              | some size' => simp [size, Preflight.setSize]
        · cases found : files[first]? with
          | none => cases files[i]? <;> simp [same]
          | some file =>
              cases size : file.size with
              | none => cases files[i]? <;> simp [same, size, setError_errors]
              | some size' => cases files[i]? <;> simp [same, size, Preflight.setSize]
      rw [List.foldl_cons, ih, one]
      cases found : files[i]? with
      | none => rfl
      | some file =>
          by_cases same : i = first
          · subst same
            by_cases unread : file.size = none <;> simp [unread]
          · simp [same]

end Stats

section Total

theorem rejectTotal_sizes {aggregate : Nat} :
    (rejectTotal configuration fileIndex files aggregate before).sizes = before.sizes := by
  induction files generalizing fileIndex aggregate before with
  | nil => rfl
  | cons file rest ih =>
      rw [rejectTotal]
      split
      · rw [ih]
        split <;> rfl
      · exact ih

theorem rejectTotal_before {aggregate i : Nat} (earlier : i < fileIndex) :
    (rejectTotal configuration fileIndex files aggregate before).errors i = before.errors i := by
  induction files generalizing fileIndex aggregate before with
  | nil => rfl
  | cons file rest ih =>
      rw [rejectTotal]
      split
      · rw [ih (Nat.lt_succ_of_lt earlier)]
        split
        · rw [setError_errors, if_neg (Nat.ne_of_lt earlier)]
        · rfl
      · exact ih (Nat.lt_succ_of_lt earlier)

theorem rejectTotal_after {aggregate i : Nat} (later : fileIndex + files.length ≤ i) :
    (rejectTotal configuration fileIndex files aggregate before).errors i = before.errors i := by
  induction files generalizing fileIndex aggregate before with
  | nil => rfl
  | cons file rest ih =>
      rw [List.length_cons] at later
      have different : i ≠ fileIndex := by omega
      rw [rejectTotal]
      split
      · rw [ih (by omega)]
        split
        · rw [setError_errors, if_neg different]
        · rfl
      · exact ih (by omega)

/-- Before the sum each file of the list has its size or an error. -/
def Stated (before : Preflight) (fileIndex : Nat) (files : List UploadedFile) : Prop :=
  ∀ k file, files[k]? = some file → before.sizes (fileIndex + k) = file.size ∧
    (before.errors (fileIndex + k) = none ↔ file.size.isSome = true)

theorem Stated.tail (stated : Stated before fileIndex (file :: rest)) :
    Stated before (fileIndex + 1) rest := by
  intro k other found
  have later := stated (k + 1) other found
  rwa [show fileIndex + (k + 1) = fileIndex + 1 + k by omega] at later

theorem Stated.setError (stated : Stated before fileIndex (file :: rest))
    (error : ValidationError) :
    Stated (before.setError fileIndex file error) (fileIndex + 1) rest := by
  intro k other found
  rw [setError_errors, if_neg (by omega)]
  exact stated.tail k other found

/-- The loop rejects a file exactly when the sum up to it exceeds the limit. -/
theorem rejectTotal_errors {aggregate : Nat} (stated : Stated before fileIndex files)
    (found : files[k]? = some file) :
    (rejectTotal configuration fileIndex files aggregate before).errors (fileIndex + k) =
      if file.size.isSome = true ∧ aggregate + totalUpTo files k > maximumTotal configuration then
        some (toFileError (fileIndex + k) file.originalname
          (totalUploadSizeExceeded (maximumTotal configuration)))
      else before.errors (fileIndex + k) := by
  induction files generalizing fileIndex aggregate before k with
  | nil => cases found
  | cons first rest ih =>
      obtain ⟨sizes, errors⟩ := stated 0 first rfl
      rw [Nat.add_zero] at sizes errors
      rw [rejectTotal]
      cases k with
      | zero =>
          cases found
          rw [Nat.add_zero fileIndex, totalUpTo_zero]
          cases size : file.size with
          | none =>
              simp only [sizes, size, Option.isSome_none, Bool.false_eq_true, false_and, if_false]
              exact rejectTotal_before (Nat.lt_add_one fileIndex)
          | some size' =>
              rw [size] at sizes errors
              simp only [sizes, errors.mpr rfl, rejectTotal_before (Nat.lt_add_one fileIndex)]
              by_cases exceeds : aggregate + size' > maximumTotal configuration
              · simp [exceeds, setError_errors]
              · simp [exceeds, errors.mpr rfl]
      | succ k =>
          rw [show fileIndex + (k + 1) = fileIndex + 1 + k by omega, totalUpTo_succ]
          cases size : first.size with
          | none =>
              rw [size] at sizes errors
              simp only [sizes]
              rw [ih stated.tail found, Option.getD_none, Nat.zero_add]
          | some size' =>
              rw [size] at sizes errors
              simp only [sizes, errors.mpr rfl]
              split
              · have later : fileIndex + 1 + k ≠ fileIndex := by omega
                rw [ih (stated.setError _) found, setError_errors, if_neg later,
                  Option.getD_some, Nat.add_assoc aggregate]
              · rw [ih stated.tail found, Option.getD_some, Nat.add_assoc aggregate]

end Total

section Preflight

/-- What the preflight decides about one file of a request. -/
def preflightError (configuration : UploadConfiguration) (files : List UploadedFile)
    (fileIndex : Nat) (file : UploadedFile) : Option FileValidationError :=
  if configuration.maxFilesPerRequest ≤ fileIndex then
    some (toFileError fileIndex file.originalname
      (fileCountExceeded configuration.maxFilesPerRequest))
  else if file.size = none then some (toFileError fileIndex file.originalname corruptedFile)
  else if totalUpTo files fileIndex > maximumTotal configuration then
    some (toFileError fileIndex file.originalname
      (totalUploadSizeExceeded (maximumTotal configuration)))
  else none

/-- The stat calls of all eligible files have ended, in some order. -/
def Completed (configuration : UploadConfiguration) (order : List Nat)
    (files : List UploadedFile) : Prop :=
  order.Perm (List.range (eligible configuration files).length)

variable {order : List Nat}

theorem Completed.mem (completed : Completed configuration order files)
    (found : (eligible configuration files)[k]? = some file) : k ∈ order := by
  rw [completed.mem_iff, List.mem_range]
  exact (List.getElem?_eq_some_iff.mp found).1

theorem eligible_getElem? (inside : k < configuration.maxFilesPerRequest) :
    (eligible configuration files)[k]? = files[k]? := by
  rw [eligible, List.getElem?_take_of_lt inside]

theorem recordStats_eligible (completed : Completed configuration order files)
    (found : (eligible configuration files)[k]? = some file) :
    (recordStats configuration order files).sizes k = file.size ∧
      (recordStats configuration order files).errors k =
        if file.size = none then some (toFileError k file.originalname corruptedFile)
        else none := by
  have inside : k < (eligible configuration files).length :=
    (List.getElem?_eq_some_iff.mp found).1
  have known : k ∈ order := completed.mem found
  constructor
  · rw [recordStats, foldl_recordStat_sizes, rejectSurplus_sizes, found, if_pos known]
    cases size : file.size <;> simp [Preflight.empty, size]
  · rw [recordStats, foldl_recordStat_errors, rejectSurplus_before inside, found]
    simp [known, Preflight.empty]

/-- After the stat calls each eligible file has its size or an error. -/
theorem stated_eligible (completed : Completed configuration order files) :
    Stated (recordStats configuration order files) 0 (eligible configuration files) := by
  intro k file found
  obtain ⟨sizes, errors⟩ := recordStats_eligible completed found
  rw [Nat.zero_add, sizes, errors]
  cases size : file.size <;> simp

theorem preflight_sizes (completed : Completed configuration order files)
    (found : files[k]? = some file) (inside : k < configuration.maxFilesPerRequest) :
    (preflight configuration order files).sizes k = file.size := by
  rw [← eligible_getElem? inside] at found
  rw [preflight, rejectTotal_sizes]
  exact (recordStats_eligible completed found).1

/-- A size in the map is that of the file. -/
theorem size_of_preflight {size : Nat}
    (stated : (preflight configuration order files).sizes k = some size) :
    ∃ file, files[k]? = some file ∧ file.size = some size := by
  rw [preflight, rejectTotal_sizes, recordStats, foldl_recordStat_sizes, rejectSurplus_sizes]
    at stated
  have read : (eligible configuration files)[k]?.bind (·.size) = some size := by
    split at stated
    · simpa [Preflight.empty] using stated
    · cases stated
  obtain ⟨file, found, size⟩ := Option.bind_eq_some_iff.mp read
  rw [eligible, List.getElem?_take] at found
  split at found
  · exact ⟨file, found, size⟩
  · cases found

/-- A file beyond the limit keeps its error. -/
theorem preflight_surplus (found : files[k]? = some file)
    (outside : configuration.maxFilesPerRequest ≤ k) :
    (preflight configuration order files).errors k =
      some (toFileError k file.originalname
        (fileCountExceeded configuration.maxFilesPerRequest)) := by
  have submitted : k < files.length := (List.getElem?_eq_some_iff.mp found).1
  have count : (eligible configuration files).length = configuration.maxFilesPerRequest := by
    rw [eligible, List.length_take]
    omega
  have missing : (eligible configuration files)[k]? = none := by
    rw [List.getElem?_eq_none_iff, count]
    exact outside
  have dropped : (files.drop (eligible configuration files).length)[
      k - (eligible configuration files).length]? = some file := by
    rw [List.getElem?_drop, count, Nat.add_sub_cancel' outside, found]
  have surplus : (rejectSurplus configuration (eligible configuration files).length
      (files.drop (eligible configuration files).length) .empty).errors
        ((eligible configuration files).length + (k - (eligible configuration files).length)) =
      some (toFileError ((eligible configuration files).length +
          (k - (eligible configuration files).length)) file.originalname
        (fileCountExceeded configuration.maxFilesPerRequest)) :=
    rejectSurplus_errors dropped
  have index : (eligible configuration files).length +
      (k - (eligible configuration files).length) = k := by omega
  rw [index] at surplus
  rw [preflight, rejectTotal_after (by omega), recordStats, foldl_recordStat_errors, missing]
  exact surplus

/-- The order in which the stat calls end does not matter. -/
theorem preflight_errors (completed : Completed configuration order files)
    (found : files[k]? = some file) :
    (preflight configuration order files).errors k =
      preflightError configuration files k file := by
  unfold preflightError
  by_cases outside : configuration.maxFilesPerRequest ≤ k
  · rw [if_pos outside, preflight_surplus found outside]
  · have inside : k < configuration.maxFilesPerRequest := Nat.lt_of_not_le outside
    have early : (eligible configuration files)[k]? = some file := by
      rw [eligible_getElem? inside, found]
    have total : (rejectTotal configuration 0 (eligible configuration files) 0
        (recordStats configuration order files)).errors (0 + k) =
        if file.size.isSome = true ∧
            0 + totalUpTo (eligible configuration files) k > maximumTotal configuration then
          some (toFileError (0 + k) file.originalname
            (totalUploadSizeExceeded (maximumTotal configuration)))
        else (recordStats configuration order files).errors (0 + k) :=
      rejectTotal_errors (stated_eligible completed) early
    have sum : totalUpTo (eligible configuration files) k = totalUpTo files k :=
      totalUpTo_take inside
    rw [Nat.zero_add, Nat.zero_add, sum, (recordStats_eligible completed early).2] at total
    rw [if_neg outside, preflight, total]
    cases size : file.size <;> simp

end Preflight

section Outcomes

variable {order : List Nat} {outcome : FileValidationOutcome}

theorem outcomesFrom_eq (before : Preflight) :
    outcomesFrom engine configuration before fileIndex files =
      (files.zipIdx fileIndex).map fun (file, i) =>
        outcomeOf engine configuration before i file := by
  induction files generalizing fileIndex with
  | nil => rfl
  | cons file rest ih => rw [outcomesFrom, ih, List.zipIdx_cons, List.map_cons]

/-- What becomes of one file of a request. -/
theorem outcome_eq (completed : Completed configuration order files)
    (found : files[k]? = some file) :
    outcomeOf engine configuration (preflight configuration order files) k file =
      match preflightError configuration files k file with
      | some failure => .error failure
      | none => validateFile engine configuration file k (file.size.getD 0) := by
  rw [outcomeOf, preflight_errors completed found]
  cases failed : preflightError configuration files k file with
  | some failure => rfl
  | none =>
      unfold preflightError at failed
      split at failed
      · cases failed
      · rename_i inside
        split at failed
        · cases failed
        · rename_i stated
          rw [preflight_sizes completed found (Nat.lt_of_not_le inside)]
          obtain ⟨size, same⟩ := Option.ne_none_iff_exists'.mp stated
          simp [same]

theorem outcome_fileIndex (completed : Completed configuration order files)
    (found : files[k]? = some file) :
    (outcomeOf engine configuration (preflight configuration order files) k file).fileIndex =
      k := by
  rw [outcome_eq completed found]
  cases failed : preflightError configuration files k file with
  | some failure =>
      unfold preflightError at failed
      split at failed
      · cases failed
        rfl
      · split at failed
        · cases failed
          rfl
        · split at failed <;> cases failed
          rfl
  | none => exact validateFile_fileIndex

theorem rejected_count (completed : Completed configuration order files)
    (found : files[k]? = some file) (outside : configuration.maxFilesPerRequest ≤ k) :
    (outcomeOf engine configuration (preflight configuration order files) k file).RejectedWith
      "FILE_COUNT_EXCEEDED" := by
  rw [outcome_eq completed found, preflightError, if_pos outside]
  exact ⟨_, rfl, rfl⟩

/-- No other check of a file has the code of the total. -/
theorem rejected_total_iff (completed : Completed configuration order files)
    (found : files[k]? = some file) (inside : k < configuration.maxFilesPerRequest) :
    (outcomeOf engine configuration (preflight configuration order files) k file).RejectedWith
        "TOTAL_UPLOAD_SIZE_EXCEEDED" ↔
      file.size.isSome = true ∧ totalUpTo files k > maximumTotal configuration := by
  rw [outcome_eq completed found, preflightError, if_neg (Nat.not_le_of_lt inside)]
  cases size : file.size with
  | none =>
      simp only [if_true, Option.isSome_none, Bool.false_eq_true, false_and, iff_false]
      rintro ⟨error, same, code⟩
      cases same
      exact absurd code (by decide : "CORRUPTED_FILE" ≠ "TOTAL_UPLOAD_SIZE_EXCEEDED")
  | some size' =>
      rw [if_neg (Option.some_ne_none size')]
      by_cases exceeds : totalUpTo files k > maximumTotal configuration
      · rw [if_pos exceeds]
        exact iff_of_true ⟨_, rfl, rfl⟩ ⟨rfl, exceeds⟩
      · rw [if_neg exceeds]
        refine iff_of_false ?_ fun both => exceeds both.2
        rintro ⟨error, rejected, code⟩
        have known : error.code ∈ fileCodes := validateFile_code rejected
        rw [code] at known
        exact absurd known (by decide)

/-- An accepted file keeps the sum within the limit. -/
theorem accepted_size {upload : ValidatedUpload} (completed : Completed configuration order files)
    (found : files[k]? = some file)
    (accepted : outcomeOf engine configuration (preflight configuration order files) k file =
      .ok upload) :
    file.size = some upload.sizeBytes ∧ totalUpTo files k ≤ maximumTotal configuration := by
  rw [outcome_eq completed found] at accepted
  cases failed : preflightError configuration files k file with
  | some failure =>
      rw [failed] at accepted
      cases accepted
  | none =>
      rw [failed] at accepted
      obtain ⟨_, _, _, _, describes⟩ := validateFile_ok accepted
      unfold preflightError at failed
      split at failed
      · cases failed
      · split at failed
        · cases failed
        · rename_i stated
          obtain ⟨size, same⟩ := Option.ne_none_iff_exists'.mp stated
          rw [same, Option.getD_some] at describes
          split at failed
          · cases failed
          · rename_i exceeds
            exact ⟨same.trans (congrArg some describes.sizeBytes.symm), Nat.le_of_not_gt exceeds⟩

/-- The sizes of the accepted files among the first ones. -/
def acceptedTotal (outcomes : List FileValidationOutcome) : Nat :=
  ((outcomes.filterMap FileValidationOutcome.upload).map (·.sizeBytes)).sum

theorem acceptedTotal_concat (outcomes : List FileValidationOutcome)
    (outcome : FileValidationOutcome) :
    acceptedTotal (outcomes ++ [outcome]) =
      acceptedTotal outcomes + (outcome.upload.map (·.sizeBytes)).getD 0 := by
  rw [acceptedTotal, List.filterMap_append, List.map_append, List.sum_append, ← acceptedTotal]
  cases outcome <;> simp [List.filterMap_cons]

/-- Along the files the accepted sizes stay below the sum of all sizes and below the limit. -/
theorem acceptedTotal_le (completed : Completed configuration order files) (count : Nat) :
    let outcomes := outcomesFrom engine configuration (preflight configuration order files) 0 files
    acceptedTotal (outcomes.take count) ≤ ((files.take count).filterMap (·.size)).sum ∧
      acceptedTotal (outcomes.take count) ≤ maximumTotal configuration := by
  intro outcomes
  induction count with
  | zero => simp [acceptedTotal]
  | succ count ih =>
      cases found : files[count]? with
      | none =>
          have short : outcomes[count]? = none := by
            simp only [outcomes, outcomesFrom_eq, List.getElem?_map, List.getElem?_zipIdx, found,
              Option.map_none]
          rw [List.take_add_one, List.take_add_one, found, short]
          simpa using ih
      | some file =>
          have here : outcomes[count]? =
              some (outcomeOf engine configuration (preflight configuration order files) count
                file) := by
            simp only [outcomes, outcomesFrom_eq, List.getElem?_map, List.getElem?_zipIdx, found,
              Option.map_some, Nat.zero_add]
          have sum : ((files.take (count + 1)).filterMap (·.size)).sum =
              ((files.take count).filterMap (·.size)).sum + file.size.getD 0 := by
            rw [List.take_add_one, found]
            cases size : file.size <;> simp [size]
          rw [List.take_add_one, here, Option.toList_some, acceptedTotal_concat, sum]
          cases outcome : outcomeOf engine configuration (preflight configuration order files)
              count file with
          | error error =>
              simp only [FileValidationOutcome.upload, Option.map_none, Option.getD_none,
                Nat.add_zero]
              exact ⟨Nat.le_add_right_of_le ih.1, ih.2⟩
          | ok upload =>
              obtain ⟨size, total⟩ := accepted_size completed found outcome
              rw [totalUpTo, sum, size, Option.getD_some] at total
              rw [size]
              simp only [FileValidationOutcome.upload, Option.map_some, Option.getD_some]
              exact ⟨Nat.add_le_add_right ih.1 _, (Nat.add_le_add_right ih.1 _).trans total⟩

/-- The outcome at an index is that of the file there. -/
theorem outcomes_getElem? (files : List UploadedFile) (k : Nat) :
    (validateFiles engine configuration order files).outcomes[k]? =
      files[k]?.map (outcomeOf engine configuration (preflight configuration order files) k) := by
  rw [validateFiles, outcomesFrom_eq, List.getElem?_map, List.getElem?_zipIdx]
  cases files[k]? <;> simp

end Outcomes

end PostsMedia.Validation
