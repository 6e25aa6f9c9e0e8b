import LogCourier.Proofs.Pool.Hall

/-!
# What has gone out

Transfers in a hall share one channel. This file follows what goes through it, through
everything that can happen in the hall.

The **wire** (`LogCourier.Hall.Wire`) is what a receiver sees: each datagram is a message, the
messages are numbered as they come, and they show the packets taken, in the order in which they
were. The **ledger** (`LogCourier.Hall.Ledger`) has the wire and the lanes of all transfers. They
meet in one place: **the packets that were taken from the transfer at a place
(`LogCourier.Hall.lane`) are those that its own deeds say**. So whatever is known of one transfer
can be said of its messages.

In every reachable state of a hall there is such a ledger (`LogCourier.Hall.exists_ledger`).
-/

namespace LogCourier

open Transfer

namespace Hall

variable {ρ ω : Type}

/-! ### The wire -/

/-- What came from one place. -/
def lane (place : Nat) (handed : List (Nat × Packet)) : List Packet :=
  (handed.filter (·.1 = place)).map Prod.snd

theorem lane_concat_self (place : Nat) (handed : List (Nat × Packet)) (p : Packet) :
    lane place (handed ++ [(place, p)]) = lane place handed ++ [p] := by
  simp [lane, List.filter_append]

theorem lane_concat_of_ne {place i : Nat} (hne : i ≠ place) (handed : List (Nat × Packet))
    (p : Packet) : lane i (handed ++ [(place, p)]) = lane i handed := by
  simp [lane, List.filter_append, hne.symm]

/-- **What a receiver sees**: the datagrams are messages, numbered as they come, and show the
packets taken. -/
structure Wire (out : Channel.Outlet ω) (config : Channel.Config) (handed : List (Nat × Packet))
    (output : Channel × ω × List Bytes) : Prop where
  /-- The datagrams are messages that show the packets. -/
  messages : ∃ messages : List Dlt.Message, output.2.2.map Dlt.Message.read? = messages.map some ∧
    messages.map (·.header.counter) = (List.range handed.length).map UInt8.ofNat ∧
    messages.map Dlt.Message.shown = handed.map fun x => x.2.shown
  /-- The next number is the right one. -/
  counter : output.1.counter = UInt8.ofNat handed.length
  /-- The channel is set up as it was. -/
  config_eq : output.1.config = config
  /-- The last datagram was sent at a time that the clock told. -/
  timely : output.1.Timely out output.2.1

namespace Wire

variable {out : Channel.Outlet ω} {config : Channel.Config} {handed : List (Nat × Packet)}
  {output : Channel × ω × List Bytes}

theorem fresh (out : Channel.Outlet ω) (config : Channel.Config) (w : ω) :
    Wire out config [] (Channel.fresh config, w, []) :=
  ⟨⟨[], rfl, rfl, rfl⟩, rfl, rfl, .fresh out config w⟩

/-- **A packet goes through the channel**, and comes out at the end of the wire, or the channel
throws because its clock has had no time for a pause, and nothing comes out. -/
theorem take (h : Wire out config handed output) (hsends : out.Sends) (origin : Instant)
    {p : Packet} (hfits : p.payload.length ≤ Packet.maxPayload) (place : Nat) :
    ∃ back told after, (Channel.emitter out.recorded origin).take p output = (back, told, after) ∧
      out.Leads output.2.1 after.2.1 ∧
      ((back = true ∧ Wire out config (handed ++ [(place, p)]) after) ∨
        (back = false ∧ Wire out config handed after ∧
          ¬ out.HadTime config.burstInterval after.2.1)) := by
  obtain ⟨c, s, sent⟩ := output
  obtain ⟨⟨messages, hparsed, hnumbers, hshown⟩, hcounter, hconfig, htimely⟩ := h
  have htake : (Channel.emitter out.recorded origin).take p (c, s, sent) =
      c.emit out.recorded p (s, sent) := rfl
  rw [htake]
  rcases Channel.emit_cases hsends c hfits s sent with
    ⟨c', s', datagram, m, hemit, hread, hm, hms, hc', hconfig', hlast, hleads⟩ |
    ⟨c', hemit, hc', hconfig', hlast, hdelay⟩
  -- a message goes out
  · refine ⟨_, _, _, hemit, hleads, Or.inl ⟨rfl, ⟨messages ++ [m], ?_, ?_, ?_⟩, ?_,
      hconfig'.trans hconfig, ?_⟩⟩
    · simp only [List.map_append, List.map_cons, List.map_nil, hread]
      rw [hparsed]
    · rw [List.map_append, hnumbers, List.length_append, List.length_singleton, List.range_succ,
        List.map_append]
      simp only [List.map_cons, List.map_nil, hm]
      rw [← hcounter]
    · rw [List.map_append, List.map_append, hshown]
      simp only [List.map_cons, List.map_nil, hms]
    · rw [List.length_append, List.length_singleton, UInt8.ofNat_add, ← hcounter]
      exact hc'
    · intro last hlast'
      rw [hlast, Option.some.injEq] at hlast'
      exact ⟨s', .refl out s', hlast'.symm⟩
  -- there is no time to wait until
  · refine ⟨_, _, _, hemit, .refl out s, Or.inr ⟨rfl, ⟨⟨messages, hparsed, hnumbers, hshown⟩,
      hc'.trans hcounter, hconfig'.trans hconfig, ?_⟩, ?_⟩⟩
    · exact htimely.of_leads hlast (.refl out s)
    · intro htime
      rw [← hconfig] at htime
      exact htimely.delay?_ne_none htime _ hdelay

/-- **Each datagram is a message with the number of its place**, modulo 256. -/
theorem counter_of_getElem? (h : Wire out config handed output) (i : Nat) (datagram : Bytes)
    (hi : output.2.2[i]? = some datagram) :
    ∃ m, Dlt.Message.read? datagram = some m ∧ m.header.counter.toNat = i % 256 := by
  obtain ⟨messages, hparsed, hnumbers, -⟩ := h.messages
  have hat := congrArg (·[i]?) hparsed
  simp only [List.getElem?_map, hi, Option.map_some] at hat
  obtain ⟨m, hm, hread⟩ := Option.map_eq_some_iff.mp hat.symm
  refine ⟨m, hread.symm, ?_⟩
  have hnumber := congrArg (·[i]?) hnumbers
  simp only [List.getElem?_map, hm, Option.map_some] at hnumber
  obtain ⟨k, hk, hcounter⟩ := Option.map_eq_some_iff.mp hnumber.symm
  obtain ⟨hlt, rfl⟩ := List.getElem?_eq_some_iff.mp hk
  rw [← hcounter, List.getElem_range, UInt8.toNat_ofNat']

end Wire

/-! ### The ledger -/

/-- Sources that always have room for a chunk. -/
def Roomy (sources : Nat → Source ρ) : Prop :=
  ∀ place name size r, ((sources place).openSource name size r).1 ≠ .noRoom

/-- **All that is known of the transfers in a hall**: the lane of each, and the wire. The sources
were `r₀` in the beginning, and what each had left then is the file of the transfer that has its
place. -/
structure Ledger (out : Channel.Outlet ω) (sources : Nat → Source ρ) (config : Pool.Config)
    (channel : Channel.Config) (left : ρ → Bytes) (r₀ : Nat → ρ) (p : Pool)
    (h : Hall ρ (Channel × ω × List Bytes)) (deeds : Nat → List Deed)
    (handed : List (Nat × Packet)) : Prop where
  /-- The pool is set up as it was. -/
  config_eq : p.config = config
  /-- Each transfer is in its lane. -/
  lanes : ∀ (i : Nat) (j : Pool.Job), p.jobs[i]? = some j →
    Lane left (left (r₀ i)) j.transfer (deeds i) (h.sources i)
  /-- Where there is no transfer yet nothing has been done. -/
  vacant : ∀ i, p.jobs.length ≤ i → deeds i = [] ∧ h.sources i = r₀ i
  /-- The packets that were taken from a place are those that its deeds say. -/
  taken_eq : ∀ i, lane i handed = taken (deeds i)
  /-- They have gone out. -/
  wire : Wire out channel handed h.output
  /-- Nobody crashes without a cause. -/
  uncrashed : out.HadTime channel.burstInterval h.output.2.1 → Roomy sources →
    ∀ (i : Nat) (j : Pool.Job), p.jobs[i]? = some j → j.transfer.phase ≠ .crashed

namespace Ledger

variable {out : Channel.Outlet ω} {sources : Nat → Source ρ} {config : Pool.Config}
  {channel : Channel.Config} {left : ρ → Bytes} {r₀ : Nat → ρ} {p p' : Pool}
  {h h' : Hall ρ (Channel × ω × List Bytes)} {deeds : Nat → List Deed}
  {handed : List (Nat × Packet)}

theorem fresh (out : Channel.Outlet ω) (sources : Nat → Source ρ) (config : Pool.Config)
    (channel : Channel.Config) (left : ρ → Bytes) (r₀ : Nat → ρ) (w : ω) (log : List Event) :
    Ledger out sources config channel left r₀ (Pool.fresh config)
      ⟨r₀, (Channel.fresh channel, w, []), log⟩ (fun _ => []) [] where
  config_eq := rfl
  lanes := fun _ _ hj => absurd hj (by simp [Pool.fresh])
  vacant := fun _ _ => ⟨rfl, rfl⟩
  taken_eq := fun _ => rfl
  wire := .fresh out channel w
  uncrashed := fun _ _ _ _ hj => absurd hj (by simp [Pool.fresh])

/-- Telling of something does not touch the ledger. -/
theorem tell (hledger : Ledger out sources config channel left r₀ p h deeds handed)
    (told : List Event) :
    Ledger out sources config channel left r₀ p (h.tell told) deeds handed :=
  ⟨hledger.config_eq, hledger.lanes, hledger.vacant, hledger.taken_eq, hledger.wire,
    hledger.uncrashed⟩

/-- A transfer that is added has its file before it. -/
theorem add (hledger : Ledger out sources config channel left r₀ p h deeds handed) {entry : Entry}
    (hname : (Bytes.ofText entry.fileName).length ≤ Entry.maxNameLength)
    (hsize : ChunkReader.sizeFor config.chunkSize ≤ Packet.maxPayload) :
    Ledger out sources config channel left r₀ (p.add entry) h deeds handed := by
  have hjobs : (p.add entry).jobs = p.jobs ++ [.fresh entry p.config.chunkSize] := rfl
  obtain ⟨hnone, hsource⟩ := hledger.vacant p.jobs.length (Nat.le_refl _)
  refine ⟨hledger.config_eq, ?_, ?_, hledger.taken_eq, hledger.wire, ?_⟩
  · intro i j hj
    rcases getElem?_concat_cases hj with hold | ⟨rfl, rfl⟩
    · exact hledger.lanes i j hold
    -- nothing has happened at its place, so its source is as it was in the beginning
    · rw [hnone, hsource]
      refine ⟨⟨_, .begin _ _ _, fun _ => rfl⟩, fun d hd => absurd hd (by simp), ?_, hname⟩
      rw [hledger.config_eq]
      exact hsize
  · intro i hi
    rw [hjobs, List.length_append, List.length_singleton] at hi
    exact hledger.vacant i (Nat.le_of_succ_le hi)
  · intro htime hroomy i j hj
    rcases getElem?_concat_cases hj with hold | ⟨rfl, rfl⟩
    · exact hledger.uncrashed htime hroomy i j hold
    · simp [Pool.Job.fresh, Transfer.fresh]

/-- A job that only comes to another stage does not touch the ledger. -/
theorem restage (hledger : Ledger out sources config channel left r₀ p h deeds handed) {place : Nat}
    {j j' : Pool.Job} (hj : p.jobs[place]? = some j) (hjobs : p'.jobs = p.jobs.set place j')
    (htransfer : j'.transfer = j.transfer) (hconfig : p'.config = p.config) :
    Ledger out sources config channel left r₀ p' h deeds handed := by
  have hsame {i : Nat} {k : Pool.Job} (hk : p'.jobs[i]? = some k) :
      ∃ k', p.jobs[i]? = some k' ∧ k.transfer = k'.transfer := by
    rw [hjobs] at hk
    rcases getElem?_set_cases hk with ⟨rfl, rfl⟩ | ⟨-, hold⟩
    · exact ⟨j, hj, htransfer⟩
    · exact ⟨k, hold, rfl⟩
  refine ⟨hconfig.trans hledger.config_eq, ?_, ?_, hledger.taken_eq, hledger.wire, ?_⟩
  · intro i k hk
    obtain ⟨k', hk', heq⟩ := hsame hk
    rw [heq]
    exact hledger.lanes i k' hk'
  · intro i hi
    rw [hjobs, List.length_set] at hi
    exact hledger.vacant i hi
  · intro htime hroomy i k hk
    obtain ⟨k', hk', heq⟩ := hsame hk
    rw [heq]
    exact hledger.uncrashed htime hroomy i k' hk'

/-- What a step puts into the ledger: the packet that was taken, if one was. -/
theorem exists_wire (hledger : Ledger out sources config channel left r₀ p h deeds handed)
    (hsends : out.Sends) (origin : Instant) {place : Nat} {new : List Deed}
    (hperforms : Performs (surroundings (Channel.emitter out.recorded origin) sources place) h new
      h')
    (hfits : ∀ q back, .handed q back ∈ new → q.payload.length ≤ Packet.maxPayload) :
    ∃ handed', Wire out channel handed' h'.output ∧
      lane place handed' = taken (deeds place) ++ taken new ∧
      (∀ i, i ≠ place → lane i handed' = taken (deeds i)) ∧
      out.Leads h.output.2.1 h'.output.2.1 ∧
      (out.HadTime channel.burstInterval h'.output.2.1 → ∀ q, .handed q false ∉ new) := by
  rcases (performs_cases hperforms).2 with ⟨houtput, hnone⟩ | ⟨q, hnew, houtput⟩
  · rw [houtput, taken_eq_nil hnone, List.append_nil]
    exact ⟨handed, hledger.wire, hledger.taken_eq place, fun i _ => hledger.taken_eq i,
      .refl out _, fun _ q => hnone q false⟩
  · have hq : q.payload.length ≤ Packet.maxPayload :=
      hfits q _ (hnew ▸ List.mem_singleton.mpr rfl)
    obtain ⟨back, told, after, htake, hleads, hcases⟩ := hledger.wire.take hsends origin hq place
    rw [htake] at hnew houtput
    subst hnew
    rw [houtput]
    rcases hcases with ⟨rfl, hwire⟩ | ⟨rfl, hwire, hlate⟩
    · refine ⟨handed ++ [(place, q)], hwire, ?_, ?_, hleads, fun _ q' => by simp⟩
      · rw [lane_concat_self, hledger.taken_eq]
        rfl
      · intro i hi
        rw [lane_concat_of_ne hi, hledger.taken_eq]
    · refine ⟨handed, hwire, ?_, fun i _ => hledger.taken_eq i, hleads,
        fun htime => absurd htime hlate⟩
      rw [hledger.taken_eq]
      exact (List.append_nil _).symm

/-- **A step of a transfer is entered in the ledger.** -/
theorem work (hledger : Ledger out sources config channel left r₀ p h deeds handed)
    {ending : Nat → Option IoError} (hsupplies : ∀ i, (sources i).Supplies left (ending i))
    (hsends : out.Sends) (origin : Instant) {place : Nat} {j : Pool.Job}
    (hj : p.jobs[place]? = some j) (hlive : j.transfer.isOver = false) :
    ∃ deeds' handed', Ledger out sources config channel left r₀
      (p.setJob place
        { (Hall.work (Channel.emitter out.recorded origin) sources place j h).1 with
          stage := .running })
      (Hall.work (Channel.emitter out.recorded origin) sources place j h).2 deeds' handed' := by
  obtain ⟨new, told, h', hdoes, hperforms, hafter, -⟩ :=
    exists_does (surroundings (Channel.emitter out.recorded origin) sources place) j.transfer h
  have hlane := hledger.lanes place j hj
  have hlane' := hlane.step (hsupplies place) hlive hdoes hperforms
  obtain ⟨rest, hfaithful, -⟩ := hlane.faithful
  obtain ⟨handed', hwire, hhere, hthere, hleads, hback⟩ := hledger.exists_wire hsends origin
    hperforms fun q back => hfaithful.portioned.payload_le hfaithful.account hfaithful.standing
      hlane.name_le hlane.size_le hlane.brief hdoes
  have hothers := (performs_cases hperforms).1
  obtain ⟨hsources, houtput⟩ :=
    tellAll_surroundings (Channel.emitter out.recorded origin) sources place told h'
  rw [← hafter] at hsources houtput
  refine ⟨fun i => if i = place then deeds i ++ new else deeds i, handed', hledger.config_eq,
    ?_, ?_, ?_, ?_, ?_⟩
  -- the transfer at the place has made a step in its lane, and the others are as they were
  · intro i k hk
    change Lane left _ _ _ ((j.transfer.step _ h).2.sources i)
    rw [hsources]
    rcases getElem?_set_cases hk with ⟨rfl, rfl⟩ | ⟨hne, hold⟩
    · rw [if_pos rfl]
      exact hlane'
    · rw [if_neg hne, hothers i hne]
      exact hledger.lanes i k hold
  · intro i hi
    have hplace : place < p.jobs.length := (List.getElem?_eq_some_iff.mp hj).1
    have hge : p.jobs.length ≤ i := by simpa [Pool.setJob] using hi
    have hne : i ≠ place := by omega
    change _ ∧ (j.transfer.step _ h).2.sources i = _
    rw [hsources, if_neg hne, hothers i hne]
    exact hledger.vacant i hge
  · intro i
    by_cases hi : i = place
    · rw [if_pos hi, hi, hhere, taken_append]
    · rw [if_neg hi, hthere i hi]
  · change Wire out channel handed' (j.transfer.step _ h).2.output
    rw [houtput]
    exact hwire
  · intro htime hroomy i k hk
    change out.HadTime channel.burstInterval (j.transfer.step _ h).2.output.2.1 at htime
    rw [houtput] at htime
    rcases getElem?_set_cases hk with ⟨rfl, rfl⟩ | ⟨hne, hold⟩
    · intro hcrashed
      rcases hdoes.cause_of_crashed hlive hcrashed with ⟨name, size, hopened⟩ | ⟨q, hthrown⟩
      · cases hperforms with
        | opened name' size' =>
          rw [List.mem_singleton, Deed.opened.injEq] at hopened
          exact hroomy i name' size' (h.sources i) hopened.2.2.symm
        | _ => exact absurd hopened (by simp)
      · exact hback htime q hthrown
    · exact hledger.uncrashed (htime.of_leads hleads) hroomy i k hold

end Ledger

/-- **In every reachable state of a hall there is a ledger.** -/
theorem exists_ledger {out : Channel.Outlet ω} (hsends : out.Sends) (origin : Instant)
    {sources : Nat → Source ρ} {left : ρ → Bytes} {ending : Nat → Option IoError}
    (hsupplies : ∀ i, (sources i).Supplies left (ending i)) {config : Pool.Config}
    (hsize : ChunkReader.sizeFor config.chunkSize ≤ Packet.maxPayload) (channel : Channel.Config)
    {r₀ : Nat → ρ} {w : ω} {log : List Event} {p : Pool} {h : Hall ρ (Channel × ω × List Bytes)}
    (hreachable : Pool.Reachable (Hall.work (Channel.emitter out.recorded origin) sources)
      Hall.tell config ⟨r₀, (Channel.fresh channel, w, []), log⟩ p h) :
    ∃ deeds handed, Ledger out sources config channel left r₀ p h deeds handed := by
  induction hreachable with
  | fresh => exact ⟨_, _, .fresh out sources config channel left r₀ w log⟩
  | act _ hact ih =>
    obtain ⟨deeds, handed, hledger⟩ := ih
    rcases Pool.act?_cases hact with ⟨record, entry, hdecode, -, rfl, rfl⟩ |
      ⟨rfl, rfl | ⟨told, rfl⟩⟩ | ⟨m, hmoves⟩
    · have hname := Entry.length_fileName_le_of_decode hdecode
      exact ⟨deeds, handed, (hledger.add hname hsize).tell _⟩
    · exact ⟨deeds, handed, hledger⟩
    · exact ⟨deeds, handed, hledger.tell told⟩
    · cases hmoves with
      | start hj hstage hpermit => exact ⟨deeds, handed, hledger.restage hj rfl rfl rfl⟩
      | work hj hstage hlive => exact hledger.work hsupplies hsends origin hj hlive
      | settle hj hstage hover => exact ⟨deeds, handed, hledger.restage hj rfl rfl rfl⟩
      | retire hj hstage => exact ⟨deeds, handed, hledger.restage hj rfl rfl rfl⟩

end Hall

end LogCourier
