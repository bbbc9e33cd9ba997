import PackageKitDart.Client.Types
import PackageKitDart.Library.Classify

namespace PackageKitDart.Client

open Classify

structure PkInstallPlan where
  installing : List PkPackage := []
  updating : List PkPackage := []
  removing : List PkPackage := []
  reinstalling : List PkPackage := []
  downgrading : List PkPackage := []
  obsoleting : List PkPackage := []
  deriving DecidableEq, Repr

namespace PkInstallPlan

/-- The `switch` of `planFromPackages`. -/
def add (plan : PkInstallPlan) (p : PkPackage) : PkInstallPlan :=
  match p.info with
  | .installing => { plan with installing := plan.installing ++ [p] }
  | .updating => { plan with updating := plan.updating ++ [p] }
  | .removing => { plan with removing := plan.removing ++ [p] }
  | .reinstalling => { plan with reinstalling := plan.reinstalling ++ [p] }
  | .downgrading => { plan with downgrading := plan.downgrading ++ [p] }
  | .obsoleting => { plan with obsoleting := plan.obsoleting ++ [p] }
  | _ => { plan with installing := plan.installing ++ [p] }

def allIds (plan : PkInstallPlan) : List String :=
  (plan.installing ++ plan.updating ++ plan.reinstalling ++ plan.downgrading).map (·.id.raw)

def isEmpty (plan : PkInstallPlan) : Bool :=
  plan.installing.isEmpty && plan.updating.isEmpty && plan.removing.isEmpty &&
    plan.reinstalling.isEmpty && plan.downgrading.isEmpty && plan.obsoleting.isEmpty

def changeCount (plan : PkInstallPlan) : ℕ :=
  plan.installing.length + plan.updating.length + plan.removing.length +
    plan.reinstalling.length + plan.downgrading.length + plan.obsoleting.length

end PkInstallPlan

def planFromPackages (pkgs : List PkPackage) : PkInstallPlan := pkgs.foldl .add {}

/-- What a plan does with a package. -/
inductive Change
  | installing | updating | removing | reinstalling | downgrading | obsoleting
  deriving DecidableEq

/-- The kinds without a list of their own count as installing. -/
def PkPackage.change (p : PkPackage) : Change :=
  match p.info with
  | .updating => .updating
  | .removing => .removing
  | .reinstalling => .reinstalling
  | .downgrading => .downgrading
  | .obsoleting => .obsoleting
  | _ => .installing

namespace PkInstallPlan

def list (plan : PkInstallPlan) : Change → List PkPackage
  | .installing => plan.installing
  | .updating => plan.updating
  | .removing => plan.removing
  | .reinstalling => plan.reinstalling
  | .downgrading => plan.downgrading
  | .obsoleting => plan.obsoleting

/-- The plans list by list, one behind the other. -/
def append (plan plan' : PkInstallPlan) : PkInstallPlan where
  installing := plan.installing ++ plan'.installing
  updating := plan.updating ++ plan'.updating
  removing := plan.removing ++ plan'.removing
  reinstalling := plan.reinstalling ++ plan'.reinstalling
  downgrading := plan.downgrading ++ plan'.downgrading
  obsoleting := plan.obsoleting ++ plan'.obsoleting

theorem ext_list {plan plan' : PkInstallPlan} (h : ∀ c, plan.list c = plan'.list c) :
    plan = plan' := by
  cases plan
  cases plan'
  rw [mk.injEq]
  exact ⟨h .installing, h .updating, h .removing, h .reinstalling, h .downgrading, h .obsoleting⟩

theorem list_append (plan plan' : PkInstallPlan) (c : Change) :
    (plan.append plan').list c = plan.list c ++ plan'.list c := by
  cases c <;> rfl

theorem add_eq (plan : PkInstallPlan) (p : PkPackage) : plan.add p =
    match p.change with
    | .installing => { plan with installing := plan.installing ++ [p] }
    | .updating => { plan with updating := plan.updating ++ [p] }
    | .removing => { plan with removing := plan.removing ++ [p] }
    | .reinstalling => { plan with reinstalling := plan.reinstalling ++ [p] }
    | .downgrading => { plan with downgrading := plan.downgrading ++ [p] }
    | .obsoleting => { plan with obsoleting := plan.obsoleting ++ [p] } := by
  rw [add, PkPackage.change]
  cases p.info <;> rfl

/-- One package goes to the end of the list of its kind. -/
theorem list_add (plan : PkInstallPlan) (p : PkPackage) (c : Change) :
    (plan.add p).list c = plan.list c ++ if p.change = c then [p] else [] := by
  rw [add_eq]
  cases p.change <;> cases c <;> simp [list]

theorem list_foldl (pkgs : List PkPackage) (plan : PkInstallPlan) (c : Change) :
    (pkgs.foldl add plan).list c = plan.list c ++ fiber PkPackage.change c pkgs := by
  induction pkgs generalizing plan with
  | nil => simp [fiber]
  | cons p pkgs ih => rw [List.foldl_cons, ih, list_add, fiber_cons, List.append_assoc]

end PkInstallPlan

open PkInstallPlan

theorem list_planFromPackages (pkgs : List PkPackage) (c : Change) :
    (planFromPackages pkgs).list c = fiber PkPackage.change c pkgs := by
  have h := list_foldl pkgs {} c
  have hempty : list {} c = [] := by cases c <;> rfl
  rwa [hempty, List.nil_append] at h

/-- Each list of the plan has the packages of its kind, in the order they came in. -/
structure Splits (plan : PkInstallPlan) (pkgs : List PkPackage) : Prop where
  installing : plan.installing = pkgs.filter (fun p ↦
    p.info ∉ [.updating, .removing, .reinstalling, .downgrading, .obsoleting])
  updating : plan.updating = pkgs.filter (fun p ↦ p.info = .updating)
  removing : plan.removing = pkgs.filter (fun p ↦ p.info = .removing)
  reinstalling : plan.reinstalling = pkgs.filter (fun p ↦ p.info = .reinstalling)
  downgrading : plan.downgrading = pkgs.filter (fun p ↦ p.info = .downgrading)
  obsoleting : plan.obsoleting = pkgs.filter (fun p ↦ p.info = .obsoleting)

theorem change_eq_iff (p : PkPackage) (c : Change) : p.change = c ↔
    match c with
    | .installing => p.info ∉ [.updating, .removing, .reinstalling, .downgrading, .obsoleting]
    | .updating => p.info = .updating
    | .removing => p.info = .removing
    | .reinstalling => p.info = .reinstalling
    | .downgrading => p.info = .downgrading
    | .obsoleting => p.info = .obsoleting := by
  rw [PkPackage.change]
  cases p.info <;> cases c <;> decide

theorem list_eq_filter (pkgs : List PkPackage) (c : Change) (P : PkInfo → Prop) [DecidablePred P]
    (h : ∀ p : PkPackage, p.change = c ↔ P p.info) :
    (planFromPackages pkgs).list c = pkgs.filter (fun p ↦ P p.info) := by
  rw [list_planFromPackages]
  exact List.filter_congr (fun p _ ↦ decide_eq_decide.mpr (h p))

theorem splits_planFromPackages (pkgs : List PkPackage) : Splits (planFromPackages pkgs) pkgs where
  installing := list_eq_filter pkgs .installing
    (fun info ↦ info ∉ [PkInfo.updating, .removing, .reinstalling, .downgrading, .obsoleting])
    (change_eq_iff · .installing)
  updating := list_eq_filter pkgs .updating (· = .updating) (change_eq_iff · .updating)
  removing := list_eq_filter pkgs .removing (· = .removing) (change_eq_iff · .removing)
  reinstalling :=
    list_eq_filter pkgs .reinstalling (· = .reinstalling) (change_eq_iff · .reinstalling)
  downgrading := list_eq_filter pkgs .downgrading (· = .downgrading) (change_eq_iff · .downgrading)
  obsoleting := list_eq_filter pkgs .obsoleting (· = .obsoleting) (change_eq_iff · .obsoleting)

def changes : List Change :=
  [.installing, .updating, .removing, .reinstalling, .downgrading, .obsoleting]

/-- The lists together are the packages again. -/
theorem perm_planFromPackages (pkgs : List PkPackage) :
    (changes.flatMap (planFromPackages pkgs).list).Perm pkgs := by
  have hall : ∀ c, c ∈ changes := by
    intro c
    cases c <;> decide
  have hperm := perm_flatMap_fiber PkPackage.change changes (by decide) pkgs
  simp only [hall, decide_true, List.filter_true] at hperm
  simpa only [← list_planFromPackages] using hperm

theorem changeCount_planFromPackages (pkgs : List PkPackage) :
    (planFromPackages pkgs).changeCount = pkgs.length := by
  rw [← (perm_planFromPackages pkgs).length_eq]
  simp [changes, changeCount, list, Nat.add_assoc]

theorem isEmpty_iff_changeCount (plan : PkInstallPlan) : plan.isEmpty ↔ plan.changeCount = 0 := by
  simp [isEmpty, changeCount, Nat.add_eq_zero_iff, List.isEmpty_iff]

/-- The list `allIds` leaves out the packages that go away. -/
theorem allIds_planFromPackages (pkgs : List PkPackage) :
    (planFromPackages pkgs).allIds.Perm
      ((pkgs.filter (fun p ↦ p.info ≠ .removing ∧ p.info ≠ .obsoleting)).map (·.id.raw)) := by
  have hperm := perm_flatMap_fiber PkPackage.change
    [.installing, .updating, .reinstalling, .downgrading] (by decide) pkgs
  have hkinds : pkgs.filter
      (fun p ↦ p.change ∈ ([.installing, .updating, .reinstalling, .downgrading] : List Change)) =
      pkgs.filter (fun p ↦ p.info ≠ .removing ∧ p.info ≠ .obsoleting) := by
    refine List.filter_congr (fun p _ ↦ decide_eq_decide.mpr ?_)
    rw [PkPackage.change]
    cases p.info <;> decide
  rw [hkinds] at hperm
  simp only [← list_planFromPackages] at hperm
  refine List.Perm.map _ (List.Perm.trans (List.Perm.of_eq ?_) hperm)
  simp [list, List.append_assoc]

theorem planFromPackages_append (pkgs pkgs' : List PkPackage) :
    planFromPackages (pkgs ++ pkgs') = (planFromPackages pkgs).append (planFromPackages pkgs') := by
  refine ext_list (fun c ↦ ?_)
  rw [list_append, list_planFromPackages, list_planFromPackages, list_planFromPackages,
    fiber_append]

/-- The plan of a simulation is its packages, sorted by kind. -/
theorem planFromPackages_partitions (pkgs : List PkPackage) :
    Splits (planFromPackages pkgs) pkgs ∧
    (planFromPackages pkgs).changeCount = pkgs.length ∧
    ((planFromPackages pkgs).isEmpty ↔ pkgs = []) ∧
    (planFromPackages pkgs).allIds.Perm
      ((pkgs.filter (fun p ↦ p.info ≠ .removing ∧ p.info ≠ .obsoleting)).map (·.id.raw)) ∧
    ∀ pkgs', planFromPackages (pkgs ++ pkgs') =
      (planFromPackages pkgs).append (planFromPackages pkgs') := by
  refine ⟨splits_planFromPackages pkgs, changeCount_planFromPackages pkgs, ?_,
    allIds_planFromPackages pkgs, planFromPackages_append pkgs⟩
  rw [isEmpty_iff_changeCount, changeCount_planFromPackages, List.length_eq_zero_iff]

end PackageKitDart.Client
