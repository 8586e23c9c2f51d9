import Amp.L3.Types

set_option autoImplicit false

/- The tunables a link is made with and their joint check (link/Types.h,
PeerLinkConfig.cpp). -/
namespace Amp

open Adp (AdpTuning)

/-- The part of `PeerLinkConfig` that the check reads. -/
structure PeerLinkConfig where
  adp : AdpTuning := {}
  mux : MuxTuning := {}
  deriving DecidableEq, Repr

def validatePeerLinkConfig (config : PeerLinkConfig) : Except String Unit :=
  let adp := config.adp
  let mux := config.mux
  if adp.reliableWindow = 0 then .error "amp config: adp.reliable_window must be > 0"
  else if adp.replayWindow < adp.reliableWindow then
    .error ("amp config: adp.replay_window (" ++ toString adp.replayWindow ++
      ") must be >= adp.reliable_window (" ++ toString adp.reliableWindow ++ ")")
  else if adp.rtxIntervalMs ≤ 0 ∨ adp.maxRtx ≤ 0 then
    .error "amp config: adp.rtx_interval_ms and adp.max_rtx must be > 0"
  else if adp.skewMs ≤ 0 then .error "amp config: adp.skew_ms must be > 0"
  else if adp.aliveTimeoutMs < 2 * adp.rtxIntervalMs then
    .error "amp config: adp.alive_timeout_ms must be >= 2 x adp.rtx_interval_ms"
  else if mux.maxConcurrentChannels = 0 then
    .error "amp config: mux.max_concurrent_channels must be > 0"
  else if mux.maxQueuedBytes < AmpChannelLimits.kMaxControlJsonFrameBytes then
    .error ("amp config: mux.max_queued_bytes must hold at least one control message (" ++
      toString AmpChannelLimits.kMaxControlJsonFrameBytes ++ " bytes)")
  else if mux.fragAssemblyTimeoutMs < adp.rtxIntervalMs * adp.maxRtx then
    .error "amp config: mux.frag_assembly_timeout_ms must be >= adp.rtx_interval_ms x adp.max_rtx"
  else .ok ()

/-- What an accepted configuration promises, each check once. -/
structure PeerLinkConfig.Valid (config : PeerLinkConfig) : Prop where
  window : 0 < config.adp.reliableWindow
  replay : config.adp.reliableWindow ≤ config.adp.replayWindow
  interval : 0 < config.adp.rtxIntervalMs
  attempts : 0 < config.adp.maxRtx
  skew : 0 < config.adp.skewMs
  alive : 2 * config.adp.rtxIntervalMs ≤ config.adp.aliveTimeoutMs
  channels : 0 < config.mux.maxConcurrentChannels
  queue : AmpChannelLimits.kMaxControlJsonFrameBytes ≤ config.mux.maxQueuedBytes
  fragments : config.adp.rtxIntervalMs * config.adp.maxRtx ≤ config.mux.fragAssemblyTimeoutMs

theorem validatePeerLinkConfig_ok (config : PeerLinkConfig) :
    validatePeerLinkConfig config = .ok () ↔ config.Valid := by
  unfold validatePeerLinkConfig
  constructor
  · intro accepted
    dsimp only at accepted
    split_ifs at accepted with h1 h2 h3 h4 h5 h6 h7 h8
    rw [not_or] at h3
    exact ⟨by omega, by omega, by omega, by omega, by omega, by omega, by omega, by omega,
      Int.not_lt.mp h8⟩
  · intro valid
    have window := valid.window
    have replay := valid.replay
    have interval := valid.interval
    have attempts := valid.attempts
    have skew := valid.skew
    have alive := valid.alive
    have channels := valid.channels
    have queue := valid.queue
    dsimp only
    rw [if_neg (by omega), if_neg (by omega), if_neg (by omega), if_neg (by omega),
      if_neg (by omega), if_neg (by omega), if_neg (by omega), if_neg (Int.not_lt.mpr valid.fragments)]

end Amp
