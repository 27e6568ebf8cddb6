/-!
The errors of the MCP SDK that the modelled functions report.
-/

namespace AgentProtocols.MCP

inductive McpError where
  /-- `InvalidState`: not allowed in the current state. -/
  | state (message : String)
  /-- `InvalidArgument`: a local argument was rejected. -/
  | argument (message : String)
  /-- Schema validation of tool input or output failed. -/
  | validation (message : String)
deriving DecidableEq, Repr

/-- How an error is displayed. -/
def McpError.text : McpError → String
  | .state message => message
  | .argument message => message
  | .validation message => message

end AgentProtocols.MCP
