namespace Gamemaster

def serverName : String := "tabletop"

def rollerName : String := "tabletop-roll"

def version : String := "0.1.0"

end Gamemaster
