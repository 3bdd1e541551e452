import GdbControl.Client.Stop

/-!
The life of the server: it has a client from its start to its end, and leaves no session behind that
can be stopped.
-/

namespace GdbControl

structure Server where
  client? : Option Client

namespace Server

/-- A server that has just started. -/
def start (client : Client) : Server := ⟨some client⟩

def client (server : Server) : Except Fault Client :=
  match server.client? with
  | some client => .ok client
  | none => .error (.internal "Debug client not initialized")

/-- The client after all its sessions were stopped. -/
def stopped (client : Client) : Client :=
  match Control.stopAll.run client with
  | .ok _ later => later
  | .error _ later => later

/-- Ends the server: the client as it was last, and the server without it. -/
def leave (server : Server) : Option Client × Server :=
  (server.client?.map stopped, ⟨none⟩)

end Server
end GdbControl
