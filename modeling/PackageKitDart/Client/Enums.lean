import Mathlib.Data.Nat.Notation
import PackageKitDart.Library.BitFlags

namespace PackageKitDart.Client

/-- `values.firstWhere((e) => e.value == v, orElse: () => orElse)`. -/
def firstWhere {E : Type} (values : List E) (value : E → ℕ) (orElse : E) (v : ℕ) : E :=
  (values.find? (fun e ↦ value e == v)).getD orElse

/-- The member that a word stands for: the one with this value, or `orElse` if there is none. -/
def StandsFor {E : Type} (value : E → ℕ) (orElse : E) (v : ℕ) (e : E) : Prop :=
  value e = v ∨ e = orElse ∧ ∀ a, value a ≠ v

section FirstWhere

variable {E : Type} {values : List E} {value : E → ℕ} {orElse : E}

theorem firstWhere_of_forall_ne {v : ℕ} (h : ∀ a, value a ≠ v) :
    firstWhere values value orElse v = orElse := by
  have hnone : values.find? (fun e ↦ value e == v) = none :=
    List.find?_eq_none.mpr (fun a _ ↦ by simpa using h a)
  rw [firstWhere, hnone]
  rfl

/-- When every member is read back from its own value, the lookup finds what a word stands for. -/
theorem firstWhere_eq_iff (hback : ∀ e, firstWhere values value orElse (value e) = e) {v : ℕ}
    {e : E} : firstWhere values value orElse v = e ↔ StandsFor value orElse v e := by
  constructor
  · rintro rfl
    by_cases hmember : ∃ a, value a = v
    · obtain ⟨a, rfl⟩ := hmember
      exact .inl (congrArg value (hback a))
    · have hnone : ∀ a, value a ≠ v := fun a ha ↦ hmember ⟨a, ha⟩
      exact .inr ⟨firstWhere_of_forall_ne hnone, hnone⟩
  · intro h
    rcases h with rfl | ⟨rfl, hnone⟩
    · exact hback e
    · exact firstWhere_of_forall_ne hnone

theorem standsFor_iff {e : E} (he : e ≠ orElse) {v : ℕ} :
    StandsFor value orElse v e ↔ v = value e := by
  rw [StandsFor, or_iff_left (fun h ↦ he h.1)]
  exact eq_comm

end FirstWhere

inductive PkFilter
  | none | installed | notInstalled | development | notDevelopment | gui | notGui | free_ | notFree
  | visible | notVisible | supported | notSupported | baseName | notBaseName | newest | notNewest
  | arch | notArch | source | notSource | collections | notCollections | application
  | notApplication | downloaded | notDownloaded
  deriving DecidableEq, Repr

namespace PkFilter

def value : PkFilter → ℕ
  | .none => 0
  | .installed => 1 <<< 2
  | .notInstalled => 1 <<< 3
  | .development => 1 <<< 4
  | .notDevelopment => 1 <<< 5
  | .gui => 1 <<< 6
  | .notGui => 1 <<< 7
  | .free_ => 1 <<< 8
  | .notFree => 1 <<< 9
  | .visible => 1 <<< 10
  | .notVisible => 1 <<< 11
  | .supported => 1 <<< 12
  | .notSupported => 1 <<< 13
  | .baseName => 1 <<< 14
  | .notBaseName => 1 <<< 15
  | .newest => 1 <<< 16
  | .notNewest => 1 <<< 17
  | .arch => 1 <<< 18
  | .notArch => 1 <<< 19
  | .source => 1 <<< 20
  | .notSource => 1 <<< 21
  | .collections => 1 <<< 22
  | .notCollections => 1 <<< 23
  | .application => 1 <<< 24
  | .notApplication => 1 <<< 25
  | .downloaded => 1 <<< 26
  | .notDownloaded => 1 <<< 27

def combine (filters : List PkFilter) : ℕ := BitFlags.combine value filters

theorem separate_value : BitFlags.Separate value where
  bit f := by
    cases f with
    | none => exact .inl rfl
    | _ => exact .inr ⟨_, Nat.one_shiftLeft _⟩
  own f g h := by
    cases f <;> cases g <;> first | exact .inl rfl | exact .inr rfl | exact absurd h (by decide)

theorem combine_lt (filters : List PkFilter) : combine filters < 2 ^ 64 := by
  refine BitFlags.combine_lt (fun f _ ↦ ?_)
  cases f <;> decide

end PkFilter

inductive PkTransactionFlag
  | onlyTrusted | simulate | onlyDownload | allowReinstall | justReinstall | allowDowngrade
  deriving DecidableEq, Repr

namespace PkTransactionFlag

def value : PkTransactionFlag → ℕ
  | .onlyTrusted => 1 <<< 1
  | .simulate => 1 <<< 2
  | .onlyDownload => 1 <<< 3
  | .allowReinstall => 1 <<< 4
  | .justReinstall => 1 <<< 5
  | .allowDowngrade => 1 <<< 6

def combine (flags : List PkTransactionFlag) : ℕ := BitFlags.combine value flags

theorem separate_value : BitFlags.Separate value where
  bit f := by
    cases f <;> exact .inr ⟨_, Nat.one_shiftLeft _⟩
  own f g h := by
    cases f <;> cases g <;> first | exact .inr rfl | exact absurd h (by decide)

theorem combine_lt (flags : List PkTransactionFlag) : combine flags < 2 ^ 64 := by
  refine BitFlags.combine_lt (fun f _ ↦ ?_)
  cases f <;> decide

end PkTransactionFlag

inductive PkInfo
  | unknown | installed | available | low | enhancement | normal | bugfix | important | security
  | blocked | downloading | updating | installing | removing | cleanup | obsoleting
  | collectionInstalled | collectionAvailable | finished | reinstalling | downgrading | preparing
  | decompressing | untrusted | trusted | unavailable
  deriving DecidableEq, Repr

namespace PkInfo

def value : PkInfo → ℕ
  | .unknown => 0
  | .installed => 1
  | .available => 2
  | .low => 3
  | .enhancement => 4
  | .normal => 5
  | .bugfix => 6
  | .important => 7
  | .security => 8
  | .blocked => 9
  | .downloading => 10
  | .updating => 11
  | .installing => 12
  | .removing => 13
  | .cleanup => 14
  | .obsoleting => 15
  | .collectionInstalled => 16
  | .collectionAvailable => 17
  | .finished => 18
  | .reinstalling => 19
  | .downgrading => 20
  | .preparing => 21
  | .decompressing => 22
  | .untrusted => 23
  | .trusted => 24
  | .unavailable => 25

def values : List PkInfo := [
  .unknown, .installed, .available, .low, .enhancement, .normal, .bugfix, .important, .security,
  .blocked, .downloading, .updating, .installing, .removing, .cleanup, .obsoleting,
  .collectionInstalled, .collectionAvailable, .finished, .reinstalling, .downgrading, .preparing,
  .decompressing, .untrusted, .trusted, .unavailable]

def fromInt (v : ℕ) : PkInfo := firstWhere values value .unknown v

theorem fromInt_value (e : PkInfo) : fromInt e.value = e := by cases e <;> rfl

theorem fromInt_eq_iff {v : ℕ} {e : PkInfo} : fromInt v = e ↔ StandsFor value .unknown v e :=
  firstWhere_eq_iff fromInt_value

end PkInfo

inductive PkStatus
  | unknown | wait | setup | running | query | info | remove | refreshCache | download | install
  | update | cleanup | obsolete | depResolve | sigCheck | testCommit | commit | request
  | finished | cancel | downloadRepository | downloadPackagelist | downloadFilelist
  | downloadChangelog | downloadGroup | downloadUpdateinfo | repackaging | loadingCache
  | scanApplications | generatePackageList | waitingForLock | waitingForAuth | scanProcessList
  | checkExecutableFiles | checkLibraries | copyFiles | runHook
  deriving DecidableEq, Repr

namespace PkStatus

def value : PkStatus → ℕ
  | .unknown => 0
  | .wait => 1
  | .setup => 2
  | .running => 3
  | .query => 4
  | .info => 5
  | .remove => 6
  | .refreshCache => 7
  | .download => 8
  | .install => 9
  | .update => 10
  | .cleanup => 11
  | .obsolete => 12
  | .depResolve => 13
  | .sigCheck => 14
  | .testCommit => 15
  | .commit => 16
  | .request => 17
  | .finished => 18
  | .cancel => 19
  | .downloadRepository => 20
  | .downloadPackagelist => 21
  | .downloadFilelist => 22
  | .downloadChangelog => 23
  | .downloadGroup => 24
  | .downloadUpdateinfo => 25
  | .repackaging => 26
  | .loadingCache => 27
  | .scanApplications => 28
  | .generatePackageList => 29
  | .waitingForLock => 30
  | .waitingForAuth => 31
  | .scanProcessList => 32
  | .checkExecutableFiles => 33
  | .checkLibraries => 34
  | .copyFiles => 35
  | .runHook => 36

def values : List PkStatus := [
  .unknown, .wait, .setup, .running, .query, .info, .remove, .refreshCache, .download, .install,
  .update, .cleanup, .obsolete, .depResolve, .sigCheck, .testCommit, .commit, .request,
  .finished, .cancel, .downloadRepository, .downloadPackagelist, .downloadFilelist,
  .downloadChangelog, .downloadGroup, .downloadUpdateinfo, .repackaging, .loadingCache,
  .scanApplications, .generatePackageList, .waitingForLock, .waitingForAuth, .scanProcessList,
  .checkExecutableFiles, .checkLibraries, .copyFiles, .runHook]

def fromInt (v : ℕ) : PkStatus := firstWhere values value .unknown v

theorem fromInt_value (e : PkStatus) : fromInt e.value = e := by cases e <;> rfl

theorem fromInt_eq_iff {v : ℕ} {e : PkStatus} : fromInt v = e ↔ StandsFor value .unknown v e :=
  firstWhere_eq_iff fromInt_value

end PkStatus

inductive PkExit
  | unknown | success | failed | cancelled | keyRequired | eulaRequired | killed | mediaRequired
  | needUntrusted | cancelledPriority | skipTransaction | repairRequired
  deriving DecidableEq, Repr

namespace PkExit

def value : PkExit → ℕ
  | .unknown => 0
  | .success => 1
  | .failed => 2
  | .cancelled => 3
  | .keyRequired => 4
  | .eulaRequired => 5
  | .killed => 6
  | .mediaRequired => 7
  | .needUntrusted => 8
  | .cancelledPriority => 9
  | .skipTransaction => 10
  | .repairRequired => 11

def values : List PkExit := [
  .unknown, .success, .failed, .cancelled, .keyRequired, .eulaRequired, .killed, .mediaRequired,
  .needUntrusted, .cancelledPriority, .skipTransaction, .repairRequired]

def fromInt (v : ℕ) : PkExit := firstWhere values value .unknown v

theorem fromInt_value (e : PkExit) : fromInt e.value = e := by cases e <;> rfl

theorem fromInt_eq_iff {v : ℕ} {e : PkExit} : fromInt v = e ↔ StandsFor value .unknown v e :=
  firstWhere_eq_iff fromInt_value

def name : PkExit → String
  | .unknown => "unknown"
  | .success => "success"
  | .failed => "failed"
  | .cancelled => "cancelled"
  | .keyRequired => "keyRequired"
  | .eulaRequired => "eulaRequired"
  | .killed => "killed"
  | .mediaRequired => "mediaRequired"
  | .needUntrusted => "needUntrusted"
  | .cancelledPriority => "cancelledPriority"
  | .skipTransaction => "skipTransaction"
  | .repairRequired => "repairRequired"

theorem fromInt_eq_success (v : ℕ) : fromInt v = .success ↔ v = 1 :=
  fromInt_eq_iff.trans (standsFor_iff (by decide))

end PkExit

end PackageKitDart.Client
