import FlowObserver.Settings.Basic
import FlowObserver.Time.Human

/-!
# Writing settings

All settings as a document, in a fixed order. A duration is a text, in whatever spelling.
-/

namespace FlowObserver

variable (spelling : Duration.Spelling)

def Duration.toJson (d : Duration) : Json := .str (spelling.write d)

namespace Settings

def strings (items : List String) : Json := .arr (items.map .str)

def toFields (s : Settings) : List (String × Json) :=
  [("log_level", s.logLevel.label),
   ("log_format", s.logFormat.label),
   ("attach", .obj [("mode", s.attach.mode.label), ("interface", s.attach.interface),
     ("patterns", strings s.attach.patterns), ("kinds", strings s.attach.kinds)]),
   ("ebpf_object_path", s.objectPath),
   ("pipeline", .obj [("handoff_capacity", s.pipeline.handoffCapacity),
     ("handoff_timeout", s.pipeline.handoffTimeout.toJson spelling),
     ("backoff_initial", s.pipeline.backoffInitial.toJson spelling),
     ("backoff_max", s.pipeline.backoffMax.toJson spelling),
     ("max_consecutive_failures", s.pipeline.maxConsecutiveFailures),
     ("loss_poll_interval", s.pipeline.lossPollInterval.toJson spelling)]),
   ("distribution", .obj [("subscriber_capacity", s.distribution.subscriberCapacity)]),
   ("kubernetes", .obj [("enabled", s.kubernetes.enabled),
     ("watch_reconnect_delay", s.kubernetes.watchReconnectDelay.toJson spelling)]),
   ("grpc", .obj [("listen_address", s.service.address), ("port", s.service.port.toNat)]),
   ("metrics", .obj [("enabled", s.metrics.enabled), ("listen_address", s.metrics.listen.address),
     ("port", s.metrics.listen.port.toNat)]),
   ("servicemap", .obj [("enabled", s.serviceMap.enabled),
     ("default_window", s.serviceMap.defaultWindow.toJson spelling),
     ("retention", s.serviceMap.retention.toJson spelling)]),
   ("shutdown_timeout", s.shutdownTimeout.toJson spelling)]

def toJson (s : Settings) : Json := .obj (s.toFields spelling)

end Settings
end FlowObserver
