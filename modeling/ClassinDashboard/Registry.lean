import Mathlib.Data.List.Nodup
import Mathlib.Data.List.Perm.Basic

/-!
A service that creates entries on request. A request with a key creates at most one entry: when the
key comes again, the service answers the id of the entry that has it. A request without a key always
creates.
-/

/-- What was created, under which key, and the id that the service chose. -/
@[ext]
structure Registry.Entry (ι κ β : Type) where
  id : ι
  key : Option κ
  body : β

/-- The entries in order of creation. -/
structure Registry (ι κ β : Type) where
  entries : List (Registry.Entry ι κ β)
  nodup : (entries.map Registry.Entry.id).Nodup

namespace Registry

variable {ι κ β : Type}

/-- Some entry has the key. -/
def Used (r : Registry ι κ β) (key : κ) : Prop := ∃ entry ∈ r.entries, entry.key = some key

def bodies (r : Registry ι κ β) : List β := r.entries.map Entry.body

def insert (r : Registry ι κ β) (entry : Entry ι κ β) (h : entry.id ∉ r.entries.map Entry.id) :
    Registry ι κ β where
  entries := r.entries ++ [entry]
  nodup := by
    rw [List.map_append, List.map_singleton]
    exact List.nodup_append.mpr ⟨r.nodup, List.nodup_singleton _, fun id hid other hother => by
      rw [List.mem_singleton.mp hother]
      rintro rfl
      exact h hid⟩

/-- One request and the id of its answer. -/
inductive Creates (r : Registry ι κ β) : Option κ → β → ι → Registry ι κ β → Prop
  | known {entry : Entry ι κ β} {key : κ} (body : β) (hmem : entry ∈ r.entries)
      (hkey : entry.key = some key) : Creates r (some key) body entry.id r
  | fresh {id : ι} {key : Option κ} (body : β) (hid : id ∉ r.entries.map Entry.id)
      (hkey : ∀ k, key = some k → ¬r.Used k) : Creates r key body id (r.insert ⟨id, key, body⟩ hid)

/-- The requests in order. -/
inductive CreatesAll : Registry ι κ β → List (Option κ × β) → Registry ι κ β → Prop
  | nil (r : Registry ι κ β) : CreatesAll r [] r
  | cons {r r' r'' : Registry ι κ β} {key : Option κ} {body : β} {id : ι}
      {requests : List (Option κ × β)} (h : r.Creates key body id r')
      (hrest : CreatesAll r' requests r'') : CreatesAll r ((key, body) :: requests) r''

section Runs

variable {r r' a b : Registry ι κ β} {requests requests' : List (Option κ × β)}

theorem CreatesAll.append (h : r.CreatesAll requests r') (h' : r'.CreatesAll requests' a) :
    r.CreatesAll (requests ++ requests') a := by
  induction h with
  | nil r => exact h'
  | cons hstep _ ih => exact .cons hstep (ih h')

theorem Creates.subset {key : Option κ} {body : β} {id : ι} (h : r.Creates key body id r') :
    r.entries ⊆ r'.entries := by
  cases h with
  | known => exact List.Subset.refl _
  | fresh => exact List.subset_append_left _ _

theorem CreatesAll.subset (h : r.CreatesAll requests r') : r.entries ⊆ r'.entries := by
  induction h with
  | nil r => exact List.Subset.refl _
  | cons hstep _ ih => exact List.Subset.trans hstep.subset ih

theorem Used.mono {key : κ} (h : r.Used key) (hsub : r.entries ⊆ r'.entries) : r'.Used key := by
  obtain ⟨entry, hentry, hkey⟩ := h
  exact ⟨entry, hsub hentry, hkey⟩

/-! ### Requests without keys -/

/-- Every request without a key adds its entry. -/
theorem CreatesAll.bodies_of_unkeyed (h : r.CreatesAll requests r')
    (hunkeyed : ∀ request ∈ requests, request.1 = none) :
    r'.bodies = r.bodies ++ requests.map Prod.snd := by
  induction h with
  | nil r => rw [List.map_nil, List.append_nil]
  | cons hstep _ ih =>
      have hkey := hunkeyed _ List.mem_cons_self
      rw [ih fun request hrequest => hunkeyed request (List.mem_cons_of_mem _ hrequest)]
      cases hstep with
      | known => cases hkey
      | fresh body hid _ =>
          simp only [bodies, insert, List.map_append, List.map_cons, List.map_nil,
            List.append_assoc, List.singleton_append]

/-- Two runs without keys leave the same bodies exactly when they asked for the same ones. -/
theorem bodies_perm_iff (ha : r.CreatesAll requests a) (hb : r.CreatesAll requests' b)
    (hua : ∀ request ∈ requests, request.1 = none) (hub : ∀ request ∈ requests', request.1 = none) :
    a.bodies.Perm b.bodies ↔ (requests.map Prod.snd).Perm (requests'.map Prod.snd) := by
  rw [ha.bodies_of_unkeyed hua, hb.bodies_of_unkeyed hub]
  exact List.perm_append_left_iff _

/-! ### Requests with keys -/

theorem used_insert {entry : Entry ι κ β} {h : entry.id ∉ r.entries.map Entry.id} {key : κ} :
    (r.insert entry h).Used key ↔ r.Used key ∨ entry.key = some key := by
  unfold Used insert
  simp only [List.mem_append, List.mem_singleton, or_and_right, exists_or, exists_eq_left]

/-- The id of an answer is the id of the entry that has the key. -/
theorem Creates.named {key : κ} {body : β} {id : ι} (h : r.Creates (some key) body id r') :
    ∃ entry ∈ r'.entries, entry.key = some key ∧ entry.id = id := by
  cases h with
  | @known entry _ _ hmem hkey => exact ⟨entry, hmem, hkey, rfl⟩
  | fresh body hid _ =>
      exact ⟨⟨id, some key, body⟩, List.mem_append_right _ (List.mem_singleton_self _), rfl, rfl⟩

/-- The entries of one key have one id in both. -/
def SameNames (a b : Registry ι κ β) : Prop :=
  ∀ entry ∈ a.entries, ∀ other ∈ b.entries, entry.key.isSome = true → entry.key = other.key →
    entry.id = other.id

theorem SameNames.symm (h : SameNames a b) : SameNames b a := fun entry hentry other hother hsome hkey =>
  (h other hother entry hentry (hkey ▸ hsome) hkey.symm).symm

variable [DecidableEq κ]

/-- The body of the first request with a key. -/
def firstBody (requests : List (Option κ × β)) (key : κ) : Option β :=
  requests.findSome? fun request => if request.1 = some key then some request.2 else none

theorem firstBody_cons {key other : κ} {body : β} :
    firstBody ((some other, body) :: requests) key =
      if other = key then some body else firstBody requests key := by
  rw [firstBody, List.findSome?_cons]
  by_cases hkey : other = key
  · rw [if_pos hkey, if_pos (congrArg some hkey)]
  · rw [if_neg hkey, if_neg fun h => hkey (Option.some.inj h)]
    rfl

/-- Where an entry comes from: it was there, or its key was new and it is what was first asked for. -/
theorem CreatesAll.mem (h : r.CreatesAll requests r')
    (hkeyed : ∀ request ∈ requests, request.1.isSome = true) {entry : Entry ι κ β}
    (hentry : entry ∈ r'.entries) :
    entry ∈ r.entries ∨
      ∃ key, entry.key = some key ∧ ¬r.Used key ∧ firstBody requests key = some entry.body := by
  induction h with
  | nil r => exact .inl hentry
  | @cons r r' r'' key body id requests hstep _ ih =>
      obtain ⟨other, rfl⟩ := Option.isSome_iff_exists.mp (hkeyed _ List.mem_cons_self)
      have hrest := ih (fun request hrequest => hkeyed request (List.mem_cons_of_mem _ hrequest)) hentry
      cases hstep with
      | @known known _ _ hmem hother =>
          refine hrest.imp_right ?_
          rintro ⟨key, hkey, hunused, hfirst⟩
          refine ⟨key, hkey, hunused, ?_⟩
          have hne : other ≠ key := by
            rintro rfl
            exact hunused ⟨known, hmem, hother⟩
          rw [firstBody_cons, if_neg hne]
          exact hfirst
      | fresh _ hid hnew =>
          rcases hrest with hmem | ⟨key, hkey, hunused, hfirst⟩
          · rcases List.mem_append.mp hmem with hmem | hmem
            · exact .inl hmem
            · obtain rfl := List.mem_singleton.mp hmem
              refine .inr ⟨other, rfl, hnew other rfl, ?_⟩
              rw [firstBody_cons, if_pos rfl]
          · rw [used_insert, not_or] at hunused
            refine .inr ⟨key, hkey, hunused.1, ?_⟩
            rw [firstBody_cons, if_neg fun h => hunused.2 (congrArg some h)]
            exact hfirst

/-- A new key gets the entry that was first asked for. -/
theorem CreatesAll.created (h : r.CreatesAll requests r')
    (hkeyed : ∀ request ∈ requests, request.1.isSome = true) {key : κ} {body : β}
    (hunused : ¬r.Used key) (hfirst : firstBody requests key = some body) :
    ∃ entry ∈ r'.entries, entry.key = some key ∧ entry.body = body := by
  induction h with
  | nil r => cases hfirst
  | @cons r r' r'' key' body' id requests hstep hrest ih =>
      obtain ⟨other, rfl⟩ := Option.isSome_iff_exists.mp (hkeyed _ List.mem_cons_self)
      have hlater := ih fun request hrequest => hkeyed request (List.mem_cons_of_mem _ hrequest)
      rw [firstBody_cons] at hfirst
      cases hstep with
      | @known known _ _ hmem hother =>
          have hne : other ≠ key := by
            rintro rfl
            exact hunused ⟨known, hmem, hother⟩
          rw [if_neg hne] at hfirst
          exact hlater hunused hfirst
      | fresh _ hid _ =>
          by_cases hkey : other = key
          · rw [if_pos hkey] at hfirst
            have hmem : ⟨id, some other, body'⟩ ∈ (r.insert ⟨id, some other, body'⟩ hid).entries :=
              List.mem_append_right _ (List.mem_singleton_self _)
            exact ⟨_, hrest.subset hmem, congrArg some hkey, Option.some.inj hfirst⟩
          · rw [if_neg hkey] at hfirst
            refine hlater ?_ hfirst
            rw [used_insert, not_or]
            exact ⟨hunused, fun h => hkey (Option.some.inj h)⟩

theorem subset_of_firstBody (ha : r.CreatesAll requests a) (hb : r.CreatesAll requests' b)
    (hka : ∀ request ∈ requests, request.1.isSome = true)
    (hkb : ∀ request ∈ requests', request.1.isSome = true) (hnames : SameNames a b)
    (h : ∀ key, ¬r.Used key → firstBody requests key = firstBody requests' key) :
    a.entries ⊆ b.entries := by
  intro entry hentry
  rcases ha.mem hka hentry with hmem | ⟨key, hkey, hunused, hfirst⟩
  · exact hb.subset hmem
  · obtain ⟨other, hother, hsame, hbody⟩ := hb.created hkb hunused ((h key hunused) ▸ hfirst)
    have hid := hnames entry hentry other hother (hkey ▸ rfl) (hkey.trans hsame.symm)
    have heq : entry = other := Entry.ext hid (hkey.trans hsame.symm) hbody.symm
    exact heq ▸ hother

theorem firstBody_of_subset (ha : r.CreatesAll requests a) (hb : r.CreatesAll requests' b)
    (hka : ∀ request ∈ requests, request.1.isSome = true)
    (hkb : ∀ request ∈ requests', request.1.isSome = true) (hsub : a.entries ⊆ b.entries) {key : κ}
    {body : β} (hunused : ¬r.Used key) (hfirst : firstBody requests key = some body) :
    firstBody requests' key = some body := by
  obtain ⟨entry, hentry, hkey, rfl⟩ := ha.created hka hunused hfirst
  rcases hb.mem hkb (hsub hentry) with hmem | ⟨other, hother, _, hfirst'⟩
  · exact absurd ⟨entry, hmem, hkey⟩ hunused
  · obtain rfl := Option.some.inj (hkey.symm.trans hother)
    exact hfirst'

/-- Two runs with keys leave the same entries exactly when, of the requests with a new key, the first
ones agree. -/
theorem entries_perm_iff (ha : r.CreatesAll requests a) (hb : r.CreatesAll requests' b)
    (hka : ∀ request ∈ requests, request.1.isSome = true)
    (hkb : ∀ request ∈ requests', request.1.isSome = true) (hnames : SameNames a b) :
    a.entries.Perm b.entries ↔
      ∀ key, ¬r.Used key → firstBody requests key = firstBody requests' key := by
  constructor
  · intro h key hunused
    refine Option.ext fun body => ⟨?_, ?_⟩
    · exact firstBody_of_subset ha hb hka hkb h.subset hunused
    · exact firstBody_of_subset hb ha hkb hka h.symm.subset hunused
  · intro h
    refine (List.perm_ext_iff_of_nodup (List.Nodup.of_map _ a.nodup)
      (List.Nodup.of_map _ b.nodup)).mpr fun entry => ⟨fun hentry => ?_, fun hentry => ?_⟩
    · exact subset_of_firstBody ha hb hka hkb hnames h hentry
    · exact subset_of_firstBody hb ha hkb hka hnames.symm (fun key hunused => (h key hunused).symm)
        hentry

end Runs

end Registry
