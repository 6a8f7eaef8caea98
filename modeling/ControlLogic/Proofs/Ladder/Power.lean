import ControlLogic.Ladder.Rung
import ControlLogic.Proofs.StructuredText.BitProgram
import Mathlib.Data.List.Nodup

/-!
# Power on a rung

What a rung of bit instructions does to the bits, said without any code for it.  Power enters
a rung from the left.  A contact passes power when its bit has the value it looks for, a coil
acts on its bit by the power that reaches it, and parallel branches join.

A rung is scanned from left to right and from top to bottom, so a contact sees what the coils
before it have done.  `Element.scan` is one step of the scan; `scanBranch`, `scanStage` and
`runRung` are the scan of a branch, of a stage and of a rung.

Two kinds of wiring occur.  On a rung a coil passes the power on, which is `kept`.  Behind the
coil of a rung that was cut into single statements the power is there again, which is
`restored`.  The second half of this file compares the two on one branch.

* `scanBranch_restored_eq` says that they agree if at most one coil stands to the right of
  the first contact.
* `exists_scanBranch_restored_ne` says that otherwise they differ on some valuation, unless
  an operand occurs twice.
-/

namespace ControlLogic.Ladder

open StructuredText

/-! ## Bit instructions -/

/-- A contact.  It passes power when its bit has the value `on`. -/
structure Contact where
  operand : String
  on : Bool
  deriving DecidableEq

/-- What a coil does to its bit. -/
inductive CoilKind where
  /-- The bit takes the power. -/
  | energize
  /-- Power switches the bit on. -/
  | latch
  /-- Power switches the bit off. -/
  | unlatch
  deriving DecidableEq

/-- A coil. -/
structure Coil where
  kind : CoilKind
  operand : String
  deriving DecidableEq

/-- A bit instruction. -/
inductive Element where
  | contact (c : Contact)
  | coil (k : Coil)
  deriving DecidableEq

/-- The call that a contact is written as. -/
def Contact.call (c : Contact) : Call := ⟨if c.on then "XIC" else "XIO", [c.operand]⟩

/-- The name of a coil. -/
def CoilKind.name : CoilKind → String
  | energize => "OTE"
  | latch => "OTL"
  | unlatch => "OTU"

/-- The call that a coil is written as. -/
def Coil.call (k : Coil) : Call := ⟨k.kind.name, [k.operand]⟩

/-- The call that a bit instruction is written as. -/
def Element.call : Element → Call
  | contact c => c.call
  | coil k => k.call

/-- The bit of an instruction. -/
def Element.operand : Element → String
  | contact c => c.operand
  | coil k => k.operand

/-- Whether an instruction is a coil. -/
def Element.isCoil : Element → Bool
  | contact _ => false
  | coil _ => true

@[simp] theorem Element.isCoil_contact (c : Contact) : (contact c).isCoil = false := rfl

@[simp] theorem Element.isCoil_coil (k : Coil) : (coil k).isCoil = true := rfl

/-! ## The scan -/

/-- Whether a contact passes power. -/
def Contact.passes (v : Valuation) (c : Contact) : Bool := v c.operand == c.on

/-- The bits after a coil that the power reaches. -/
def Coil.drive (power : Bool) (k : Coil) (v : Valuation) : Valuation :=
  match k.kind with
  | .energize => v.set k.operand power
  | .latch => if power then v.set k.operand true else v
  | .unlatch => if power then v.set k.operand false else v

/-- The state of a scan: the power at a place of the rung, and the bits. -/
structure Scan where
  power : Bool
  bits : Valuation

/-- The power behind a coil of a rung. -/
def kept (power : Bool) : Bool := power

/-- The power behind a coil if every coil ends its own piece of the rung. -/
def restored (_power : Bool) : Bool := true

/-- The scan of one instruction; `behind` gives the power behind a coil. -/
def Element.scan (behind : Bool → Bool) : Element → Scan → Scan
  | contact c, s => ⟨s.power && c.passes s.bits, s.bits⟩
  | coil k, s => ⟨behind s.power, k.drive s.power s.bits⟩

/-- The scan of a branch. -/
def scanBranch (behind : Bool → Bool) : List Element → Scan → Scan
  | [], s => s
  | e :: rest, s => scanBranch behind rest (e.scan behind s)

/-- The scan of parallel branches, each of which the same power enters.  The second argument
is the power that comes out of the branches above. -/
def scanStage (behind : Bool → Bool) (entering : Bool) :
    List (List Element) → Scan → Scan
  | [], s => s
  | branch :: rest, s =>
    let t := scanBranch behind branch ⟨entering, s.bits⟩
    scanStage behind entering rest ⟨s.power || t.power, t.bits⟩

/-- The scan of stages in series. -/
def scanStages : List (List (List Element)) → Scan → Scan
  | [], s => s
  | stage :: rest, s => scanStages rest (scanStage kept s.power stage ⟨false, s.bits⟩)

/-- The bits after a scan of a rung. -/
def runRung (rung : List (List (List Element))) (v : Valuation) : Valuation :=
  (scanStages rung ⟨true, v⟩).bits

/-- A rung of one branch is scanned as that branch. -/
theorem runRung_series (es : List Element) (v : Valuation) :
    runRung [[es]] v = (scanBranch kept es ⟨true, v⟩).bits := rfl

theorem scanBranch_append (behind : Bool → Bool) (es fs : List Element) (s : Scan) :
    scanBranch behind (es ++ fs) s = scanBranch behind fs (scanBranch behind es s) := by
  induction es generalizing s with
  | nil => rfl
  | cons e es ih => exact ih (e.scan behind s)

/-! ## Branches of contacts, and branches of coils -/

/-- Contacts take power away and leave the bits. -/
theorem scanBranch_contacts (behind : Bool → Bool) (cs : List Contact) (s : Scan) :
    scanBranch behind (cs.map .contact) s =
      ⟨s.power && cs.all (Contact.passes s.bits), s.bits⟩ := by
  induction cs generalizing s with
  | nil => simp [scanBranch]
  | cons c cs ih =>
    rw [List.map_cons, scanBranch, ih]
    simp [Element.scan, Bool.and_assoc]

/-- The bits after coils in a row that the same power reaches. -/
def driveAll (power : Bool) : List Coil → Valuation → Valuation
  | [], v => v
  | k :: rest, v => driveAll power rest (k.drive power v)

theorem driveAll_append (power : Bool) (ks ls : List Coil) (v : Valuation) :
    driveAll power (ks ++ ls) v = driveAll power ls (driveAll power ks v) := by
  induction ks generalizing v with
  | nil => rfl
  | cons k ks ih => exact ih (k.drive power v)

/-- On a rung the same power reaches the coils of a row. -/
theorem scanBranch_kept_coils (ks : List Coil) (s : Scan) :
    scanBranch kept (ks.map .coil) s = ⟨s.power, driveAll s.power ks s.bits⟩ := by
  induction ks generalizing s with
  | nil => rfl
  | cons k ks ih => rw [List.map_cons, scanBranch, ih]; rfl

/-- Whether power passes parallel branches of contacts: all contacts of some branch pass. -/
def stagePower (branches : List (List Contact)) (v : Valuation) : Bool :=
  branches.any fun branch => branch.all (Contact.passes v)

theorem scanStage_contacts (behind : Bool → Bool) (entering : Bool)
    (branches : List (List Contact)) (s : Scan) :
    scanStage behind entering (branches.map (·.map .contact)) s =
      ⟨s.power || entering && stagePower branches s.bits, s.bits⟩ := by
  induction branches generalizing s with
  | nil => simp [scanStage, stagePower]
  | cons branch branches ih =>
    rw [List.map_cons, scanStage, scanBranch_contacts, ih]
    cases entering <;> simp [stagePower, Bool.or_assoc]

theorem scanStage_kept_coils (entering : Bool) (branches : List (List Coil)) (s : Scan) :
    (scanStage kept entering (branches.map (·.map .coil)) s).bits =
      driveAll entering branches.flatten s.bits := by
  induction branches generalizing s with
  | nil => rfl
  | cons branch branches ih =>
    rw [List.map_cons, scanStage, scanBranch_kept_coils, ih, List.flatten_cons,
      driveAll_append]

/-- A rung of a stage of contacts and a stage of coils: the power of the contacts reaches
every coil. -/
theorem runRung_contacts_coils (first : List (List Contact)) (second : List (List Coil))
    (v : Valuation) :
    runRung [first.map (·.map .contact), second.map (·.map .coil)] v =
      driveAll (stagePower first v) second.flatten v := by
  rw [runRung, scanStages, scanStages, scanStages, scanStage_contacts, scanStage_kept_coils]
  simp

/-! ## What a scan does not touch -/

/-- The value that power gives the bit of a coil. -/
def CoilKind.on : CoilKind → Bool
  | energize => true
  | latch => true
  | unlatch => false

theorem Coil.drive_true (k : Coil) (v : Valuation) :
    k.drive true v = v.set k.operand k.kind.on := by
  obtain ⟨kind, x⟩ := k
  cases kind <;> rfl

theorem Coil.drive_false (k : Coil) (v : Valuation) :
    k.drive false v = if k.kind = .energize then v.set k.operand false else v := by
  obtain ⟨kind, x⟩ := k
  cases kind <;> rfl

/-- A coil changes no bit but its own. -/
theorem Coil.drive_of_ne (power : Bool) (k : Coil) (v : Valuation) {x : String}
    (h : x ≠ k.operand) : k.drive power v x = v x := by
  cases power with
  | true => rw [drive_true, Valuation.set_of_ne _ _ h]
  | false =>
    rw [drive_false]
    split
    · rw [Valuation.set_of_ne _ _ h]
    · rfl

/-- Without power, coils that are no output coils do nothing. -/
theorem driveAll_false {ks : List Coil} (h : ∀ k ∈ ks, k.kind ≠ .energize) (v : Valuation) :
    driveAll false ks v = v := by
  induction ks generalizing v with
  | nil => rfl
  | cons k ks ih =>
    rw [driveAll, Coil.drive_false, if_neg (h k List.mem_cons_self)]
    exact ih (fun l hl => h l (List.mem_cons_of_mem _ hl)) v

/-- With power, output coils switch their bits on and leave all others. -/
theorem driveAll_true_apply {ks : List Coil} (h : ∀ k ∈ ks, k.kind = .energize) (v : Valuation)
    (x : String) : driveAll true ks v x = (v x || ks.any (·.operand == x)) := by
  induction ks generalizing v with
  | nil => simp [driveAll]
  | cons k ks ih =>
    rw [driveAll, ih (fun l hl => h l (List.mem_cons_of_mem _ hl)), Coil.drive_true,
      h k List.mem_cons_self, List.any_cons]
    by_cases hx : x = k.operand
    · simp [hx, CoilKind.on]
    · have hne : (k.operand == x) = false := by simpa using Ne.symm hx
      rw [Valuation.set_of_ne _ _ hx, hne, Bool.false_or]

/-- A branch changes no bit but those of its coils. -/
theorem bits_scanBranch_of_ne (behind : Bool → Bool) {es : List Element} {x : String}
    (h : ∀ k, .coil k ∈ es → x ≠ k.operand) (s : Scan) :
    (scanBranch behind es s).bits x = s.bits x := by
  induction es generalizing s with
  | nil => rfl
  | cons e es ih =>
    rw [scanBranch, ih fun k hk => h k (List.mem_cons_of_mem _ hk)]
    cases e with
    | contact c => rfl
    | coil k => exact Coil.drive_of_ne s.power k s.bits (h k List.mem_cons_self)

theorem bits_scanBranch_of_countP_eq_zero (behind : Bool → Bool) {es : List Element}
    (h : es.countP Element.isCoil = 0) (s : Scan) :
    (scanBranch behind es s).bits = s.bits := by
  funext x
  refine bits_scanBranch_of_ne behind (fun k hk => ?_) s
  have hcoil := (List.countP_eq_zero.1 h) _ hk
  simp at hcoil

/-! ## Power kept and power restored -/

/-- At most one coil stands to the right of the first contact. -/
def OneCoil (es : List Element) : Prop :=
  (es.dropWhile Element.isCoil).countP Element.isCoil ≤ 1

instance (es : List Element) : Decidable (OneCoil es) :=
  inferInstanceAs (Decidable (_ ≤ _))

theorem oneCoil_of_countP_le_one {es : List Element} (h : es.countP Element.isCoil ≤ 1) :
    OneCoil es :=
  Nat.le_trans ((List.dropWhile_sublist _).countP_le) h

/-- The wiring behind the last coil does not matter. -/
theorem bits_scanBranch_of_countP_le_one {es : List Element}
    (h : es.countP Element.isCoil ≤ 1) (s : Scan) :
    (scanBranch restored es s).bits = (scanBranch kept es s).bits := by
  induction es generalizing s with
  | nil => rfl
  | cons e es ih =>
    cases e with
    | contact c =>
      rw [scanBranch, scanBranch]
      exact ih (by simpa using h) _
    | coil k =>
      have hrest : es.countP Element.isCoil = 0 := by
        simpa [List.countP_cons] using h
      rw [scanBranch, scanBranch, bits_scanBranch_of_countP_eq_zero _ hrest,
        bits_scanBranch_of_countP_eq_zero _ hrest]
      rfl

/-- With at most one coil to the right of the first contact, power restored behind each coil
does the same as power kept. -/
theorem scanBranch_restored_eq {es : List Element} (h : OneCoil es) (v : Valuation) :
    (scanBranch restored es ⟨true, v⟩).bits = (scanBranch kept es ⟨true, v⟩).bits := by
  induction es generalizing v with
  | nil => rfl
  | cons e es ih =>
    cases e with
    | contact c =>
      exact bits_scanBranch_of_countP_le_one (by simpa [OneCoil] using h) _
    | coil k =>
      -- No contact has been met, so the power is still there on both sides.
      have hrest : OneCoil es := by simpa [OneCoil, List.dropWhile_cons] using h
      exact ih hrest (k.drive true v)

/-- Without power, a bit that no coil would clear keeps its value. -/
theorem bits_scanBranch_dead {es : List Element} {x : String} {on : Bool}
    (h : ∀ k, .coil k ∈ es → k.operand = x → k.kind = .energize → on = false) (s : Scan)
    (hpower : s.power = false) (hx : s.bits x = on) : (scanBranch kept es s).bits x = on := by
  induction es generalizing s with
  | nil => exact hx
  | cons e es ih =>
    rw [scanBranch]
    refine ih (fun k hk => h k (List.mem_cons_of_mem _ hk)) _ ?_ ?_
    · cases e <;> simp [Element.scan, kept, hpower]
    · cases e with
      | contact c => exact hx
      | coil k =>
        show k.drive s.power s.bits x = on
        rw [hpower]
        by_cases hk : x = k.operand
        · rw [Coil.drive_false]
          split
          · rename_i hkind
            rw [← hk, Valuation.set_self, h k List.mem_cons_self hk.symm hkind]
          · exact hx
        · rw [Coil.drive_of_ne _ _ _ hk, hx]

/-- Contacts that pass leave the power as it is. -/
theorem scanBranch_of_passes (behind : Bool → Bool) {es : List Element} {s : Scan}
    (hes : ∀ e ∈ es, ∃ c, e = .contact c ∧ c.passes s.bits = true) :
    scanBranch behind es s = s := by
  induction es with
  | nil => rfl
  | cons e es ih =>
    obtain ⟨c, rfl, hc⟩ := hes e List.mem_cons_self
    have hstep : (Element.contact c).scan behind s = s := by simp [Element.scan, hc]
    rw [scanBranch, hstep]
    exact ih fun e he => hes e (List.mem_cons_of_mem _ he)

/-- A list with coils has a first one. -/
theorem exists_first_coil {es : List Element} (h : 0 < es.countP Element.isCoil) :
    ∃ before k rest, es = before ++ .coil k :: rest ∧
      (∀ e ∈ before, ∃ c, e = .contact c) ∧
      es.countP Element.isCoil = rest.countP Element.isCoil + 1 := by
  induction es with
  | nil => simp at h
  | cons e es ih =>
    cases e with
    | coil k => exact ⟨[], k, es, rfl, by simp, by simp [List.countP_cons]⟩
    | contact c =>
      obtain ⟨before, k, rest, hes, hbefore, hcount⟩ :=
        ih (by simpa using h)
      refine ⟨.contact c :: before, k, rest, by rw [hes]; rfl, ?_, ?_⟩
      · intro e he
        rcases List.mem_cons.1 he with rfl | he
        · exact ⟨c, rfl⟩
        · exact hbefore e he
      · simpa using hcount

/-- A rung with two coils to the right of its first contact, cut at that contact and at those
coils. -/
theorem exists_cut_of_not_oneCoil {es : List Element} (h : ¬ OneCoil es) :
    ∃ (coils : List Element) (c : Contact) (left : List Element) (k : Coil)
      (between : List Element) (l : Coil) (right : List Element),
      es = coils ++ .contact c :: (left ++ .coil k :: (between ++ .coil l :: right)) ∧
      ∀ e ∈ between, ∃ d, e = .contact d := by
  have htwo : 1 < (es.dropWhile Element.isCoil).countP Element.isCoil := by
    simpa [OneCoil] using h
  obtain ⟨e, tail, htail⟩ : ∃ e tail, es.dropWhile Element.isCoil = e :: tail := by
    refine List.exists_cons_of_ne_nil fun hnil => ?_
    rw [hnil, List.countP_nil] at htwo
    omega
  have he : e.isCoil = false := by
    have := List.head?_dropWhile_not Element.isCoil es
    simpa [htail] using this
  cases e with
  | coil k => simp at he
  | contact c =>
    rw [htail, List.countP_cons] at htwo
    simp only [Element.isCoil_contact, Bool.false_eq_true, if_false, Nat.add_zero] at htwo
    obtain ⟨left, k, rest, htl, -, hcount⟩ :=
      exists_first_coil (show 0 < tail.countP Element.isCoil by omega)
    obtain ⟨between, l, right, hrest, hbetween, -⟩ :=
      exists_first_coil (show 0 < rest.countP Element.isCoil by omega)
    refine ⟨es.takeWhile Element.isCoil, c, left, k, between, l, right, ?_, hbetween⟩
    rw [← hrest, ← htl, ← htail, List.takeWhile_append_dropWhile]

/-- If no operand occurs twice, a valuation can be chosen instruction by instruction. -/
theorem exists_valuation {es : List Element} (hnodup : (es.map Element.operand).Nodup)
    (f : Element → Bool) : ∃ v : Valuation, ∀ e ∈ es, v e.operand = f e := by
  induction es with
  | nil => exact ⟨fun _ => false, by simp⟩
  | cons e es ih =>
    rw [List.map_cons, List.nodup_cons] at hnodup
    obtain ⟨v, hv⟩ := ih hnodup.2
    refine ⟨v.set e.operand (f e), fun d hd => ?_⟩
    rcases List.mem_cons.1 hd with rfl | hd
    · exact Valuation.set_self _ _ _
    · have hne : d.operand ≠ e.operand := fun h => hnodup.1 (h ▸ List.mem_map_of_mem hd)
      rw [Valuation.set_of_ne _ _ hne, hv d hd]

/-- A contact that fails takes the power from all that follows it. -/
theorem bits_scanBranch_failing {coils rest : List Element} {c : Contact} {x : String}
    {on : Bool} {v : Valuation}
    (hcoils : ∀ k, .coil k ∈ coils → c.operand ≠ k.operand ∧ x ≠ k.operand)
    (hc : v c.operand = !c.on) (hx : v x = on)
    (hrest : ∀ k, .coil k ∈ rest → k.operand = x → k.kind = .energize → on = false) :
    (scanBranch kept (coils ++ .contact c :: rest) ⟨true, v⟩).bits x = on := by
  rw [scanBranch_append, scanBranch]
  apply bits_scanBranch_dead hrest
  · have hkeep := bits_scanBranch_of_ne kept (fun k hk => (hcoils k hk).1) ⟨true, v⟩
    simp [Element.scan, Contact.passes, hkeep, hc]
  · exact (bits_scanBranch_of_ne kept (fun k hk => (hcoils k hk).2) ⟨true, v⟩).trans hx

/-- Where power is restored, a coil whose own contacts pass acts, whatever stands before the
last coil. -/
theorem bits_scanBranch_restored {before between right : List Element} {k l : Coil} {s : Scan}
    (hbetween : ∀ e ∈ between, ∃ d, e = .contact d ∧ d.passes s.bits = true ∧
      ∀ m, .coil m ∈ before ++ [.coil k] → d.operand ≠ m.operand)
    (hright : ∀ m, .coil m ∈ right → l.operand ≠ m.operand) :
    (scanBranch restored (before ++ [.coil k] ++ between ++ .coil l :: right) s).bits l.operand =
      l.kind.on := by
  rw [scanBranch_append, scanBranch_append]
  have hpower : (scanBranch restored (before ++ [.coil k]) s).power = true := by
    rw [scanBranch_append]; rfl
  have hpass : scanBranch restored between (scanBranch restored (before ++ [.coil k]) s) =
      scanBranch restored (before ++ [.coil k]) s := by
    refine scanBranch_of_passes restored fun e he => ?_
    obtain ⟨d, rfl, hd, hne⟩ := hbetween e he
    refine ⟨d, rfl, ?_⟩
    rw [Contact.passes, bits_scanBranch_of_ne restored hne]
    exact hd
  rw [hpass, scanBranch, bits_scanBranch_of_ne restored hright]
  show l.drive _ _ l.operand = _
  rw [hpower, Coil.drive_true, Valuation.set_self]

/-- With two coils to the right of the first contact, power restored behind each coil shows in
some bit, unless an operand occurs twice. -/
theorem exists_scanBranch_restored_ne {es : List Element} (h : ¬ OneCoil es)
    (hnodup : (es.map Element.operand).Nodup) :
    ∃ v, (scanBranch restored es ⟨true, v⟩).bits ≠ (scanBranch kept es ⟨true, v⟩).bits := by
  obtain ⟨coils, c, left, k, between, l, right, rfl, hbetween⟩ :=
    exists_cut_of_not_oneCoil h
  have hinj := List.inj_on_of_nodup_map hnodup
  have honce := List.Nodup.of_map _ hnodup
  -- The first contact fails, every other passes, and no bit has what its coil gives it.
  obtain ⟨v, hv⟩ := exists_valuation hnodup fun
    | .contact d => if d = c then !d.on else d.on
    | .coil m => !m.kind.on
  have hc : v c.operand = !c.on := by
    simpa [Element.operand] using hv (.contact c) (by simp)
  have hl : v l.operand = !l.kind.on := by
    simpa [Element.operand] using hv (.coil l) (by simp)
  refine ⟨v, fun heq => ?_⟩
  have hrung : (scanBranch kept (coils ++ .contact c ::
      (left ++ .coil k :: (between ++ .coil l :: right))) ⟨true, v⟩).bits l.operand =
        !l.kind.on := by
    refine bits_scanBranch_failing (fun m hm => ⟨fun hoperand => ?_, fun hoperand => ?_⟩) hc hl
      fun m hm hoperand hkind => ?_
    · have hcm : Element.contact c = .coil m := hinj (by simp) (by simp [hm]) hoperand
      cases hcm
    · have hlm : Element.coil l = .coil m := hinj (by simp) (by simp [hm]) hoperand
      rw [← hlm] at hm
      grind [List.nodup_append]
    · have hml : Element.coil m = .coil l := hinj (by simp [hm]) (by simp) hoperand
      cases hml
      rw [hkind]; rfl
  have hcode : (scanBranch restored (coils ++ .contact c :: left ++ [.coil k] ++ between ++
      .coil l :: right) ⟨true, v⟩).bits l.operand = l.kind.on := by
    refine bits_scanBranch_restored (fun e he => ?_) fun m hm hoperand => ?_
    · obtain ⟨d, rfl⟩ := hbetween e he
      refine ⟨d, rfl, ?_, fun m hm hoperand => ?_⟩
      · have hd : v d.operand = if d = c then !d.on else d.on :=
          hv (.contact d) (by simp [he])
        have hdc : d ≠ c := by grind [List.nodup_append]
        simp [Contact.passes, hd, hdc]
      · have hdm : Element.contact d = .coil m :=
          hinj (by simp [he]) (by grind) hoperand
        cases hdm
    · have hlm : Element.coil l = .coil m := hinj (by simp) (by simp [hm]) hoperand
      rw [← hlm] at hm
      grind [List.nodup_append]
  have hx := congrFun heq l.operand
  simp only [List.append_assoc, List.cons_append, List.nil_append] at hcode
  rw [hcode, hrung] at hx
  simp at hx

end ControlLogic.Ladder
